/-
Synthfi.Ftx.FtxMarketDataTheorems — when the FTX books list what the
messages say.

A side of a message is a sequence of writes to a price-to-quantity map.
`LevelOk` is the condition one level has to meet for `update_side` to carry
it out: nothing the iterator has already passed may belong at or after the
level's price, and quantity 0 may only name a price the book holds. It
speaks about the map and the previous level of the message, not about the
iterator. `updateLevel_ok` shows it is enough and `levelOk_of_updateLevel`
that it is needed, level by level; `books_list_level_maps` folds it along
every run of snapshots and updates of any number of pairs.
-/
import Synthfi.Ftx.FtxMarketData

namespace Synthfi.Ftx

open Trading SortedVec

variable {side : Side} (asserts : Bool) {m : LevelMap}

/-! ## The maps the messages describe -/

/-- The levels of one side of an update, applied one after the other. -/
def LevelMap.applyAll (m : LevelMap) (levels : List PriceQuantity) : LevelMap :=
  levels.foldl LevelMap.apply m

/-- The map a snapshot side lists. -/
def LevelMap.ofLevels (levels : List PriceQuantity) : LevelMap := fun p =>
  (levels.find? fun level => level.price = p).map PriceQuantity.quantity

/-- One level of an update, against the map before it and the price of the
level before it in the message. -/
structure LevelOk (side : Side) (m : LevelMap) (prev : Option Price) (level : PriceQuantity) :
    Prop where
  /-- What stands before the previous level also stands before this one. -/
  ahead : ∀ p ∈ prev, ∀ r, (m r).isSome → side.Better r p → side.Better r level.price
  /-- Only a price the book holds is deleted. -/
  held : level.quantity = 0 → (m level.price).isSome

/-- `LevelOk` along the levels of one side of a message. -/
def LevelsOk (side : Side) : LevelMap → Option Price → List PriceQuantity → Prop
  | _, _, [] => True
  | m, prev, level :: levels =>
    LevelOk side m prev level ∧ LevelsOk side (m.apply level) (some level.price) levels

/-- A message whose levels come best-first is never behind the iterator. -/
theorem LevelOk.of_not_better {p : Price} {level : PriceQuantity}
    (h : ¬ side.Better level.price p) (hheld : level.quantity = 0 → (m level.price).isSome) :
    LevelOk side m (some p) level := by
  refine ⟨fun p' hp' r _ hr => ?_, hheld⟩
  obtain rfl := Option.mem_some_iff.mp hp'
  rcases trichotomous_of side.Better p level.price with hlt | rfl | hgt
  · exact trans_of side.Better hr hlt
  · exact hr
  · exact absurd hgt h

/-! ## One level -/

/-- What the loop keeps: the vector lists the map, and the iterator splits
it at the previous level's price. -/
structure CursorAt (side : Side) (cursor : SideCursor) (m : LevelMap) (prev : Option Price) :
    Prop where
  lists : BookLists side cursor.1 m
  begin : prev = none → cursor.2 = 0
  splits : ∀ p ∈ prev, Splits side.Better PriceQuantity.price cursor.1 p cursor.2

theorem CursorAt.start_le {cursor : SideCursor} {prev : Option Price}
    (h : CursorAt side cursor m prev) : cursor.2 ≤ cursor.1.length := by
  cases prev with
  | none => rw [h.begin rfl]; exact Nat.zero_le _
  | some p => exact (h.splits p rfl).le_length

/-- The search of the next level starts behind levels that stand before it. -/
theorem CursorAt.skipped {cursor : SideCursor} {prev : Option Price} {level : PriceQuantity}
    (h : CursorAt side cursor m prev) (hok : LevelOk side m prev level) :
    ∀ a ∈ cursor.1.take cursor.2, side.Better a.price level.price := by
  intro a ha
  cases prev with
  | none => rw [h.begin rfl] at ha; cases ha
  | some p =>
    have hheld : (m a.price).isSome :=
      (h.lists.isSome_iff a.price).mpr ⟨a, List.mem_of_mem_take ha, rfl⟩
    exact hok.ahead p rfl a.price hheld ((h.splits p rfl).before a ha)

theorem searchFrom_splits {bookSide : SideBook} {start : ℕ} {price : Price}
    (hs : SortedBy side.Better PriceQuantity.price bookSide) (hle : start ≤ bookSide.length)
    (hskip : ∀ a ∈ bookSide.take start, side.Better a.price price) :
    Splits side.Better PriceQuantity.price bookSide price
      (searchFrom side bookSide start price) :=
  (lowerBound_spec (hs.partitionedFrom price start) hle).splits hskip

theorem bookLists_insertIdx {bookSide : SideBook} {level : PriceQuantity} {r : ℕ}
    (h : BookLists side bookSide m)
    (hs : Splits side.Better PriceQuantity.price bookSide level.price r)
    (hnew : ∀ b ∈ bookSide, b.price ≠ level.price) (hq : level.quantity ≠ 0) :
    BookLists side (bookSide.insertIdx r level) (m.apply level) := by
  have hmem : ∀ b, b ∈ bookSide.insertIdx r level ↔ b = level ∨ b ∈ bookSide :=
    fun b => List.mem_insertIdx hs.le_length
  refine ⟨h.sorted.insertIdx hs fun b hb => hnew b (List.mem_of_mem_drop hb), ?_, ?_⟩
  · intro b hb
    rcases (hmem b).mp hb with rfl | hb
    · exact hq
    · exact h.no_zero b hb
  · intro b
    rw [hmem b]
    by_cases hp : b.price = level.price
    · rw [hp, m.apply_self, if_neg hq, Option.some.injEq]
      have hnb : b ∉ bookSide := fun hb => hnew b hb hp
      rw [or_iff_left hnb]
      exact ⟨fun h => h ▸ rfl, fun hqe => by cases b; cases level; simp_all⟩
    · rw [m.apply_of_ne hp, ← h.lists b]
      exact or_iff_right fun hb => hp (hb ▸ rfl)

theorem bookLists_set {bookSide : SideBook} {level found : PriceQuantity} {r : ℕ}
    (h : BookLists side bookSide m) (hf : bookSide[r]? = some found)
    (hp : found.price = level.price) (hq : level.quantity ≠ 0) :
    BookLists side (bookSide.set r { found with quantity := level.quantity })
      (m.apply level) := by
  have hlevel : { found with quantity := level.quantity } = level := by
    cases level; cases found; simp_all
  rw [hlevel]
  refine ⟨h.sorted.set hf hp.symm, ?_, ?_⟩
  · intro b hb
    rcases (h.sorted.mem_set hf).mp hb with rfl | hb
    · exact hq
    · exact h.no_zero b hb.1
  · intro b
    rw [h.sorted.mem_set hf, hp]
    by_cases hbp : b.price = level.price
    · rw [hbp, m.apply_self, if_neg hq, Option.some.injEq]
      simp only [ne_eq, not_true_eq_false, and_false, or_false]
      exact ⟨fun h => h ▸ rfl, fun hqe => by cases b; cases level; simp_all⟩
    · rw [m.apply_of_ne hbp, ← h.lists b, and_iff_left hbp]
      exact or_iff_right fun hb => hbp (hb ▸ rfl)

theorem bookLists_eraseIdx {bookSide : SideBook} {level found : PriceQuantity} {r : ℕ}
    (h : BookLists side bookSide m) (hf : bookSide[r]? = some found)
    (hp : found.price = level.price) (hq : level.quantity = 0) :
    BookLists side (bookSide.eraseIdx r) (m.apply level) := by
  refine ⟨h.sorted.eraseIdx r, fun b hb => h.no_zero b (List.mem_of_mem_eraseIdx hb), ?_⟩
  intro b
  rw [h.sorted.mem_eraseIdx hf, hp]
  by_cases hbp : b.price = level.price
  · rw [hbp, m.apply_self, if_pos hq]
    simp
  · rw [m.apply_of_ne hbp, ← h.lists b, and_iff_left hbp]

/-- **One level is enough.** A level that meets `LevelOk` is carried out,
whichever of the four branches takes it. -/
theorem updateLevel_ok {cursor : SideCursor} {prev : Option Price} {level : PriceQuantity}
    (h : CursorAt side cursor m prev) (hok : LevelOk side m prev level) :
    ∃ cursor', updateLevel asserts side cursor level = some cursor' ∧
      CursorAt side cursor' (m.apply level) (some level.price) := by
  obtain ⟨bookSide, start⟩ := cursor
  have hs := searchFrom_splits h.lists.sorted h.start_le (h.skipped hok)
  have hcursor : ∀ bookSide',
      BookLists side bookSide' (m.apply level) →
      Splits side.Better PriceQuantity.price bookSide' level.price
        (searchFrom side bookSide start level.price) →
      CursorAt side (bookSide', searchFrom side bookSide start level.price)
        (m.apply level) (some level.price) := by
    intro bookSide' hl hs'
    refine ⟨hl, nofun, fun p hp => ?_⟩
    obtain rfl := Option.mem_some_iff.mp hp
    exact hs'
  -- A price the search does not meet is not held, so its quantity is not 0.
  have hfresh : (∀ b ∈ bookSide, b.price ≠ level.price) → level.quantity ≠ 0 := by
    intro hnew hq
    obtain ⟨b, hb, hbp⟩ := (h.lists.isSome_iff level.price).mp (hok.held hq)
    exact hnew b hb hbp
  simp only [updateLevel]
  cases hf : bookSide[searchFrom side bookSide start level.price]? with
  | none =>
    have hnew : ∀ b ∈ bookSide, b.price ≠ level.price := fun b hb =>
      hs.key_ne h.lists.sorted (fun c hc => by rw [hf] at hc; cases hc) hb
    have hq := hfresh hnew
    refine ⟨_, by simp [hq], hcursor _ (bookLists_insertIdx h.lists hs hnew hq) hs.insertIdx⟩
  | some found =>
    by_cases hp : found.price = level.price
    · by_cases hq : level.quantity = 0
      · refine ⟨_, by simp [hp, hq],
          hcursor _ (bookLists_eraseIdx h.lists hf hp hq) (hs.eraseIdx hf)⟩
      · refine ⟨_, by simp [hp, hq], hcursor _ (bookLists_set h.lists hf hp hq) ?_⟩
        exact hs.set hp hf
    · have hnew : ∀ b ∈ bookSide, b.price ≠ level.price := fun b hb =>
        hs.key_ne h.lists.sorted
          (fun c hc => by rw [hf, Option.some.injEq] at hc; exact hc ▸ hp) hb
      have hq := hfresh hnew
      refine ⟨_, by simp [hp], hcursor _ (bookLists_insertIdx h.lists hs hnew hq) hs.insertIdx⟩

/-- A record before the split position stands before the inserted one. -/
theorem better_of_insertIdx {bookSide : SideBook} {level a : PriceQuantity} {i r : ℕ}
    (hs : SortedBy side.Better PriceQuantity.price (bookSide.insertIdx r level))
    (hi : bookSide[i]? = some a) (hir : i < r) (hr : r ≤ bookSide.length) :
    side.Better a.price level.price := by
  refine hs.lt_of_getElem? hir ?_ (by rw [List.getElem?_insertIdx_self, if_pos hr])
  rw [List.getElem?_insertIdx_of_lt hir]
  exact hi

/-- **One level needs it.** If the vector still lists the map after a level,
the level met `LevelOk`. -/
theorem levelOk_of_updateLevel {cursor cursor' : SideCursor} {prev : Option Price}
    {level : PriceQuantity} (h : CursorAt side cursor m prev)
    (hstep : updateLevel asserts side cursor level = some cursor')
    (hl : BookLists side cursor'.1 (m.apply level)) : LevelOk side m prev level := by
  obtain ⟨bookSide, start⟩ := cursor
  have hsearch := lowerBound_spec (h.lists.sorted.partitionedFrom level.price start) h.start_le
  have hlen : searchFrom side bookSide start level.price ≤ bookSide.length := hsearch.le_length
  have hle : start ≤ searchFrom side bookSide start level.price := hsearch.first_le
  -- A held price before the previous level sits behind the iterator.
  have hpassed : ∀ p ∈ prev, ∀ r, (m r).isSome → side.Better r p →
      ∃ i a, i < start ∧ bookSide[i]? = some a ∧ a.price = r := by
    intro p hp r hr hrp
    obtain ⟨a, ha, rfl⟩ := (h.lists.isSome_iff r).mp hr
    rw [← List.take_append_drop start bookSide] at ha
    rcases List.mem_append.mp ha with ha | ha
    · obtain ⟨i, hi, hai⟩ := mem_take_iff_getElem?.mp ha
      exact ⟨i, a, hi, hai, rfl⟩
    · exact absurd hrp ((h.splits p hp).after a ha)
  have hinsert : (bookSide.insertIdx (searchFrom side bookSide start level.price) level,
      searchFrom side bookSide start level.price) = cursor' → LevelOk side m prev level := by
    rintro rfl
    refine ⟨fun p hp r hr hrp => ?_, fun hq => ?_⟩
    · obtain ⟨i, a, hi, hai, rfl⟩ := hpassed p hp r hr hrp
      exact better_of_insertIdx hl.sorted hai (by omega) hlen
    · exact absurd hq (hl.no_zero level ((List.mem_insertIdx hlen).mpr (Or.inl rfl)))
  simp only [updateLevel] at hstep
  cases hf : bookSide[searchFrom side bookSide start level.price]? with
  | none =>
    simp only [hf] at hstep
    split at hstep
    · cases hstep
    · exact hinsert (Option.some.inj hstep)
  | some found =>
    simp only [hf] at hstep
    by_cases hp : found.price = level.price
    · -- Overwritten or erased: the record was held, and stood where it had to.
      refine ⟨fun p' hp' r hr hrp => ?_, fun _ => ?_⟩
      · obtain ⟨i, a, hi, hai, rfl⟩ := hpassed p' hp' r hr hrp
        rw [← hp]
        exact h.lists.sorted.lt_of_getElem? (by omega) hai hf
      · exact (h.lists.isSome_iff level.price).mpr ⟨found, List.mem_of_getElem? hf, hp⟩
    · rw [if_neg hp] at hstep
      exact hinsert (Option.some.inj hstep)

/-! ## One message -/

/-- A side whose levels all meet the condition is carried out whole. -/
theorem run_updateLevel {cursor : SideCursor} {prev : Option Price}
    {levels : List PriceQuantity} (h : CursorAt side cursor m prev)
    (hok : LevelsOk side m prev levels) :
    ∃ cursor', Run.run (updateLevel asserts side) cursor levels = some cursor' ∧
      BookLists side cursor'.1 (LevelMap.applyAll m levels) := by
  induction levels generalizing cursor m prev with
  | nil => exact ⟨cursor, rfl, h.lists⟩
  | cons level levels ih =>
    obtain ⟨cursor₁, hstep, h₁⟩ := updateLevel_ok asserts h hok.1
    obtain ⟨cursor', hrun, hl⟩ := ih h₁ hok.2
    exact ⟨cursor', Run.run_cons_eq_some.mpr ⟨cursor₁, hstep, hrun⟩, hl⟩

theorem updateLevels_ok {bookSide : SideBook} {levels : List PriceQuantity}
    (h : BookLists side bookSide m) (hok : LevelsOk side m none levels) :
    ∃ bookSide', updateLevels asserts side bookSide levels = some bookSide' ∧
      BookLists side bookSide' (LevelMap.applyAll m levels) := by
  have hstart : CursorAt side (bookSide, 0) m none := ⟨h, fun _ => rfl, nofun⟩
  obtain ⟨cursor', hrun, hl⟩ := run_updateLevel asserts hstart hok
  exact ⟨cursor'.1, by rw [updateLevels, hrun, Option.map_some], hl⟩

/-- A snapshot side that is sorted, with no zero quantity, lists its map. -/
theorem bookLists_ofLevels {levels : List PriceQuantity}
    (hs : SortedBy side.Better PriceQuantity.price levels)
    (hq : ∀ level ∈ levels, level.quantity ≠ 0) :
    BookLists side levels (LevelMap.ofLevels levels) := by
  refine ⟨hs, hq, fun level => ?_⟩
  rw [LevelMap.ofLevels, Option.map_eq_some_iff]
  constructor
  · intro hl
    cases hfind : levels.find? fun l => l.price = level.price with
    | none =>
      rw [List.find?_eq_none] at hfind
      exact absurd (decide_eq_true rfl) (hfind level hl)
    | some found =>
      have hp : found.price = level.price := by simpa using List.find?_some hfind
      obtain rfl := hs.eq_of_key (List.mem_of_find?_eq_some hfind) hl hp
      exact ⟨_, rfl, rfl⟩
  · rintro ⟨found, hfind, hqe⟩
    have hp : found.price = level.price := by simpa using List.find?_some hfind
    have hfl : found = level := by cases found; cases level; simp_all
    exact hfl ▸ List.mem_of_find?_eq_some hfind

/-! ## Every run -/

/-- The maps that all messages so far describe, pair by pair. -/
abbrev LevelMaps (n : ℕ) := Fin n → SidePair LevelMap

variable {n : ℕ}

def LevelMaps.init (n : ℕ) : LevelMaps n := fun _ => ⟨fun _ => none, fun _ => none⟩

def LevelMaps.step (maps : LevelMaps n) : OrderbookEvent n → LevelMaps n
  | .snapshot i _ message =>
    Function.update maps i
      ⟨LevelMap.ofLevels (message.levels.get .bid), LevelMap.ofLevels (message.levels.get .ask)⟩
  | .update i _ message =>
    Function.update maps i
      ⟨LevelMap.applyAll (maps i).bid (message.levels.get .bid),
        LevelMap.applyAll (maps i).ask (message.levels.get .ask)⟩

/-- A snapshot side as the exchange sends it: best first, distinct prices,
positive quantities. -/
structure SnapshotSide (side : Side) (levels : List PriceQuantity) : Prop where
  sorted : SortedBy side.Better PriceQuantity.price levels
  positive : ∀ level ∈ levels, 0 < level.quantity

/-- The condition one message has to meet, against the maps before it. -/
def EventOk (maps : LevelMaps n) : OrderbookEvent n → Prop
  | .snapshot _ _ message =>
    SnapshotSide .bid (message.levels.get .bid) ∧ SnapshotSide .ask (message.levels.get .ask)
  | .update i _ message =>
    LevelsOk .bid (maps i).bid none (message.levels.get .bid) ∧
      LevelsOk .ask (maps i).ask none (message.levels.get .ask)

def EventsOk (events : List (OrderbookEvent n)) : Prop :=
  Run.Along (fun maps e => some (LevelMaps.step maps e)) EventOk (LevelMaps.init n) events

/-- Every book lists its map on both sides. -/
def BooksList (client : FtxMarketDataClient n) (maps : LevelMaps n) : Prop :=
  ∀ i, BookLists .bid ((client.books i).get .bid) (maps i).bid ∧
    BookLists .ask ((client.books i).get .ask) (maps i).ask

theorem booksList_update {client : FtxMarketDataClient n} {maps : LevelMaps n}
    (h : BooksList client maps) (str : Price → List UInt8) (i : Fin n)
    (message : FtxOrderbookMessage) {book : Book} {pair : SidePair LevelMap}
    (hbid : BookLists .bid (book.get .bid) pair.bid)
    (hask : BookLists .ask (book.get .ask) pair.ask) :
    BooksList (checkAndPublish str client i message book) (Function.update maps i pair) := by
  intro j
  by_cases hj : j = i
  · subst hj
    simpa [checkAndPublish] using And.intro hbid hask
  · simpa [checkAndPublish, Function.update_of_ne hj] using h j

theorem step_booksList {client : FtxMarketDataClient n} {maps : LevelMaps n}
    (str : Price → List UInt8) (event : OrderbookEvent n) (h : BooksList client maps)
    (hok : EventOk maps event) :
    ∃ client', client.step asserts str event = some client' ∧
      BooksList client' (LevelMaps.step maps event) := by
  cases event with
  | snapshot i now message =>
    obtain ⟨hbid, hask⟩ := hok
    refine ⟨_, rfl, booksList_update h str i message ?_ ?_⟩
    · simpa [Book.get_set] using bookLists_ofLevels hbid.sorted
        fun level hl => (hbid.positive level hl).ne'
    · simpa using bookLists_ofLevels hask.sorted fun level hl => (hask.positive level hl).ne'
  | update i now message =>
    obtain ⟨hbid, hask⟩ := hok
    obtain ⟨bids, hbids, hlb⟩ := updateLevels_ok asserts (h i).1 hbid
    obtain ⟨asks, hasks, hla⟩ := updateLevels_ok asserts (h i).2 hask
    have hget : ∀ side, ({ client.books i with
        receiveTimestamp := now, exchangeTimestamp := message.time } : Book).get side
          = (client.books i).get side := fun _ => rfl
    refine ⟨checkAndPublish str client i message
      ((({ client.books i with
          receiveTimestamp := now, exchangeTimestamp := message.time } : Book).set .bid
            bids).set .ask asks), ?_, booksList_update h str i message ?_ ?_⟩
    · simp [FtxMarketDataClient.step, doOnOrderbookUpdate, updateSide, hget, hbids,
        Book.get_set, hasks]
    · simpa [Book.get_set] using hlb
    · simpa using hla

/-- **Book maintenance.** In every run whose messages meet `EventOk`, after
every message, both sides of every book are strictly sorted, hold no zero
quantity and list exactly the map the messages describe. -/
theorem books_list_level_maps (asserts : Bool) (str : Price → List UInt8)
    (events : List (OrderbookEvent n)) (hok : EventsOk events) (k : ℕ) :
    ∃ client, Run.run (FtxMarketDataClient.step asserts str) (.init n) (events.take k)
        = some client ∧
      BooksList client ((events.take k).foldl LevelMaps.step (LevelMaps.init n)) := by
  refine Run.forward_simulation
    (fun client maps event h ho => step_booksList asserts str event h ho) (fun i => ?_) (hok.take k)
  simpa [FtxMarketDataClient.init, LevelMaps.init] using
    And.intro (bookLists_nil .bid) (bookLists_nil .ask)

/-- A snapshot that lists `bids`, then an update with the levels `levels`. -/
def snapshotThenUpdate (bids levels : List PriceQuantity) : List (OrderbookEvent 1) :=
  [.snapshot 0 0 ⟨0, 0, ⟨bids, []⟩⟩, .update 0 0 ⟨0, 0, ⟨levels, []⟩⟩]

/-- Delete the best bid, change the next and append a third: best-first, and
only held prices deleted. -/
theorem books_list_level_maps_best_first :
    EventsOk (snapshotThenUpdate [⟨10, 1⟩, ⟨9, 2⟩] [⟨10, 0⟩, ⟨9, 5⟩, ⟨8, 1⟩]) ∧
      ∃ client, Run.run (FtxMarketDataClient.step true fun _ => []) (.init 1)
          (snapshotThenUpdate [⟨10, 1⟩, ⟨9, 2⟩] [⟨10, 0⟩, ⟨9, 5⟩, ⟨8, 1⟩]) = some client ∧
        BooksList client ((snapshotThenUpdate [⟨10, 1⟩, ⟨9, 2⟩]
          [⟨10, 0⟩, ⟨9, 5⟩, ⟨8, 1⟩]).foldl LevelMaps.step (LevelMaps.init 1)) := by
  have hok : EventsOk (snapshotThenUpdate [⟨10, 1⟩, ⟨9, 2⟩] [⟨10, 0⟩, ⟨9, 5⟩, ⟨8, 1⟩]) := by
    refine ⟨⟨⟨by unfold SortedBy; decide, by decide⟩, ⟨by unfold SortedBy; decide, by decide⟩⟩,
      fun maps hmaps => ⟨?_, fun _ _ => trivial⟩⟩
    obtain rfl := Option.some.inj hmaps
    refine ⟨⟨⟨nofun, fun _ => by decide⟩, ?_⟩, trivial⟩
    refine ⟨LevelOk.of_not_better (by decide) (by decide), ?_⟩
    exact ⟨LevelOk.of_not_better (by decide) (by decide), trivial⟩
  exact ⟨hok, books_list_level_maps true (fun _ => []) _ hok 2⟩

/-- Where the condition fails. A level behind the iterator is inserted out
of order, and a quantity 0 for a price the book does not hold is stored. -/
theorem books_list_level_maps_fails :
    (SnapshotSide .bid [⟨10, 1⟩] ∧
      ¬ ∃ client, Run.run (FtxMarketDataClient.step false fun _ => []) (.init 1)
          (snapshotThenUpdate [⟨10, 1⟩] [⟨9, 1⟩, ⟨11, 1⟩]) = some client ∧
        BooksList client ((snapshotThenUpdate [⟨10, 1⟩]
          [⟨9, 1⟩, ⟨11, 1⟩]).foldl LevelMaps.step (LevelMaps.init 1))) ∧
    (SnapshotSide .bid [⟨10, 1⟩, ⟨8, 1⟩] ∧
      ¬ ∃ client, Run.run (FtxMarketDataClient.step false fun _ => []) (.init 1)
          (snapshotThenUpdate [⟨10, 1⟩, ⟨8, 1⟩] [⟨9, 0⟩]) = some client ∧
        BooksList client ((snapshotThenUpdate [⟨10, 1⟩, ⟨8, 1⟩]
          [⟨9, 0⟩]).foldl LevelMaps.step (LevelMaps.init 1))) := by
  refine ⟨⟨⟨by unfold SortedBy; decide, by decide⟩, ?_⟩,
    ⟨⟨by unfold SortedBy; decide, by decide⟩, ?_⟩⟩
  · rintro ⟨client, hrun, hlist⟩
    have hbids : (some client).map (fun c => (c.books 0).get .bid)
        = some [⟨10, 1⟩, ⟨11, 1⟩, ⟨9, 1⟩] := by
      rw [← hrun]; decide
    have hsorted := (hlist 0).1.sorted
    rw [Option.map_some, Option.some.injEq] at hbids
    rw [hbids] at hsorted
    exact absurd hsorted (by unfold SortedBy; decide)
  · rintro ⟨client, hrun, hlist⟩
    have hbids : (some client).map (fun c => (c.books 0).get .bid)
        = some [⟨10, 1⟩, ⟨9, 0⟩, ⟨8, 1⟩] := by
      rw [← hrun]; decide
    have hzero := (hlist 0).1.no_zero ⟨9, 0⟩
    rw [Option.map_some, Option.some.injEq] at hbids
    rw [hbids] at hzero
    exact hzero (by decide) rfl

end Synthfi.Ftx
