/-
Synthfi.Ftx.FtxWalletTheorems — what the subscriber of the FTX wallet is
given.

Every balances response makes one callback, at once, with the wallet of that
response: the free amount of every currency, and the free USD as the margin of
every trading pair. It goes to the subscription that returned last. The loops
of several subscriptions share one timer, which keeps the wait of at most one
of them; the others end, and one goes on while nothing fails
(`wallets_of_run`).
-/
import Synthfi.Ftx.FtxWallet

namespace Synthfi.Ftx

open CheckedVec Run Trading

/-- The loop has not ended and will not with its wait. -/
def DoUpdatePositions.Alive (loop : DoUpdatePositions) : Prop := loop ≠ .cancelled ∧ loop ≠ .ended

namespace FtxWalletClient

variable {referenceData : FtxReferenceData} {s s' : FtxWalletClient}

/-! ## The quote currency -/

/-- USD is among the currencies. -/
def Quoted (referenceData : FtxReferenceData) : Prop :=
  ∃ currency ∈ referenceData.currencies, currency.currencyName = "USD"

instance : Decidable (Quoted referenceData) :=
  inferInstanceAs (Decidable (∃ currency ∈ _, _))

/-- What the loop over the currencies finds from `i` on. -/
theorem findQuoteCurrency_from (currencies : List FtxCurrency) (i : ℕ) (found : Option ℕ) :
    let result := (currencies.zipIdx i).foldl (fun found entry =>
      if entry.1.currencyName = "USD" then some entry.2 else found) found
    (result = found ∧ ∀ currency ∈ currencies, currency.currencyName ≠ "USD") ∨
      ∃ j currency, result = some (i + j) ∧ currencies[j]? = some currency ∧
        currency.currencyName = "USD" := by
  induction currencies generalizing i found with
  | nil => exact .inl ⟨rfl, by simp⟩
  | cons first currencies ih =>
    simp only [List.zipIdx_cons, List.foldl_cons]
    obtain ⟨hresult, hno⟩ | ⟨j, currency, hresult, hj, hname⟩ :=
      ih (i + 1) (if first.currencyName = "USD" then some i else found)
    · by_cases hfirst : first.currencyName = "USD"
      · refine .inr ⟨0, first, ?_, rfl, hfirst⟩
        rw [hresult, if_pos hfirst, Nat.add_zero]
      · refine .inl ⟨?_, List.forall_mem_cons.mpr ⟨hfirst, hno⟩⟩
        rw [hresult, if_neg hfirst]
    · exact .inr ⟨j + 1, currency, by rw [hresult, Nat.add_assoc, Nat.add_comm 1], hj, hname⟩

theorem findQuoteCurrency_cases (currencies : List FtxCurrency) (found : Option ℕ) :
    (findQuoteCurrency currencies found = found ∧
        ∀ currency ∈ currencies, currency.currencyName ≠ "USD") ∨
      ∃ j currency, findQuoteCurrency currencies found = some j ∧
        currencies[j]? = some currency ∧ currency.currencyName = "USD" := by
  have hfrom := findQuoteCurrency_from currencies 0 found
  simpa only [findQuoteCurrency, Nat.zero_add] using hfrom

/-! ## One response -/

/-- The wallet of a balances response. -/
def walletOf (referenceData : FtxReferenceData) (balances : List Balance) : Wallet where
  positions := referenceData.currencies.map fun currency => freeOf balances currency.currencyName
  marginAvailable := List.replicate referenceData.tradingPairs.length (freeOf balances "USD")

theorem length_resize (quantities : List Quantity) (n : ℕ) : (resize quantities n).length = n := by
  simp only [resize, List.length_append, List.length_take, List.length_replicate]
  omega

/-- A loop can run: the reference data is there and so is the callback. -/
structure Ready (referenceData : FtxReferenceData) (s : FtxWalletClient) : Prop where
  loaded : s.referenceData = referenceData
  positions : s.wallet.positions.length = referenceData.currencies.length
  marginAvailable : s.wallet.marginAvailable.length = referenceData.tradingPairs.length
  quoteCurrency : ∃ i currency, s.quoteCurrencyIndex = some i ∧
    referenceData.currencies[i]? = some currency ∧ currency.currencyName = "USD"
  onWallet : s.onWallet ≠ none

/-- The frame: calls and loops change their status. -/
theorem Ready.frame (h : s.Ready referenceData) (calls : List DoSubscribeWallet)
    (loops : List DoUpdatePositions) : Ready referenceData { s with calls, loops } :=
  ⟨h.loaded, h.positions, h.marginAvailable, h.quoteCurrency, h.onWallet⟩

theorem Ready.updatePositions (h : s.Ready referenceData) (balances : List Balance) :
    s.updatePositions balances = some (walletOf referenceData balances).positions := by
  have hassign := foldlM_assign
    (fun entry : FtxCurrency × ℕ => some (freeOf balances entry.1.currencyName))
    referenceData.currencies s.wallet.positions h.positions
  have hloop : s.updatePositions balances = referenceData.currencies.zipIdx.mapM
      fun entry => some (freeOf balances entry.1.currencyName) := by
    rw [← hassign, FtxWalletClient.updatePositions, h.loaded]
    rfl
  have hall : referenceData.currencies.zipIdx.mapM
      (fun entry => some (freeOf balances entry.1.currencyName)) =
      some (referenceData.currencies.zipIdx.map fun entry =>
        freeOf balances entry.1.currencyName) :=
    mapM_eq_some_map_iff.mpr fun _ _ => rfl
  have hfst : (referenceData.currencies.zipIdx.map fun entry =>
      freeOf balances entry.1.currencyName) = (walletOf referenceData balances).positions := by
    rw [walletOf, ← List.zipIdx_map_fst 0 referenceData.currencies, List.map_map]
    simp
  rw [hloop, hall, hfst]

/-- No access of a loop is out of range, and it calls back once. -/
theorem Ready.doUpdatePositions (h : s.Ready referenceData) (k : ℕ) (balances : List Balance) :
    ∃ c, s.onWallet = some c ∧ s.doUpdatePositions k balances = some { s with
      wallet := walletOf referenceData balances
      loops := s.loops.set k .publishing
      callbacks := s.callbacks ++ [(c, walletOf referenceData balances)] } := by
  obtain ⟨c, hc⟩ := Option.ne_none_iff_exists'.mp h.onWallet
  obtain ⟨i, currency, hi, hcurrency, hname⟩ := h.quoteCurrency
  have hquote : (walletOf referenceData balances).positions[i]? = some (freeOf balances "USD") := by
    simp [walletOf, hcurrency, hname]
  refine ⟨c, hc, ?_⟩
  simp only [FtxWalletClient.doUpdatePositions, h.updatePositions, hi, hquote, hc,
    h.marginAvailable, Option.bind_eq_bind, Option.bind_some, Option.pure_def]
  rfl

/-! ## What the steps keep -/

/-- The callback after a label. -/
def subscriberAfter (referenceData : FtxReferenceData) (subscriber : Option ℕ) :
    Label → Option ℕ
  | .referenceData c => if Quoted referenceData then some c else subscriber
  | _ => subscriber

/-- The callbacks a label makes. -/
def dueAt (referenceData : FtxReferenceData) (subscriber : Option ℕ) : Label → List (ℕ × Wallet)
  | .balances _ (some balances) =>
    subscriber.toList.map fun c => (c, walletOf referenceData balances)
  | _ => []

/-- What holds in every run. -/
structure Inv (referenceData : FtxReferenceData) (s : FtxWalletClient) : Prop where
  quoted : ∀ i, s.quoteCurrencyIndex = some i →
    ∃ currency, referenceData.currencies[i]? = some currency ∧ currency.currencyName = "USD"
  ready : s.loops ≠ [] → s.Ready referenceData
  looped : .returned ∈ s.calls → s.loops ≠ []
  oneWaits : s.loops.count .waiting ≤ 1

theorem inv_init : Inv referenceData init where
  quoted _ h := by cases h
  ready h := absurd rfl h
  looped h := by cases h
  oneWaits := Nat.zero_le _

/-- The frame: the loops change their status. -/
theorem Inv.frame (h : s.Inv referenceData) {loops : List DoUpdatePositions}
    (hlength : loops.length = s.loops.length) (hcount : loops.count .waiting ≤ 1) :
    Inv referenceData { s with loops } := by
  have hne : loops ≠ [] ↔ s.loops ≠ [] := by
    rw [← List.length_pos_iff, ← List.length_pos_iff, hlength]
  exact ⟨h.quoted, fun hloops => (h.ready (hne.mp hloops)).frame s.calls loops,
    fun hreturned => hne.mpr (h.looped hreturned), hcount⟩

theorem count_set_le (loops : List DoUpdatePositions) (k : ℕ) (status : DoUpdatePositions) :
    (loops.set k status).count .waiting ≤
      loops.count .waiting + if status = .waiting then 1 else 0 := by
  by_cases hk : k < loops.length
  · rw [List.count_set hk]
    simp only [beq_iff_eq]
    omega
  · rw [List.set_eq_of_length_le (by omega)]
    omega

theorem Inv.setLoop (h : s.Inv referenceData) (k : ℕ) {status : DoUpdatePositions}
    (hstatus : status ≠ .waiting) : (s.setLoop k status).Inv referenceData := by
  refine h.frame (List.length_set ..) ?_
  have hcount := count_set_le s.loops k status
  rw [if_neg hstatus] at hcount
  exact hcount.trans h.oneWaits

/-- Nothing waits after the waits have ended. -/
theorem count_endWaits (s : FtxWalletClient) {status : DoUpdatePositions}
    (hstatus : status ≠ .waiting) : (s.endWaits status).loops.count .waiting = 0 := by
  refine List.count_eq_zero.mpr fun hmem => ?_
  obtain ⟨loop, -, hloop⟩ := List.mem_map.mp hmem
  split at hloop
  · exact hstatus hloop
  · next hwaiting => exact hwaiting hloop

theorem Inv.endWaits (h : s.Inv referenceData) {status : DoUpdatePositions}
    (hstatus : status ≠ .waiting) : (s.endWaits status).Inv referenceData :=
  h.frame (List.length_map ..) ((count_endWaits s hstatus).trans_le (Nat.zero_le _))

/-- The loop that sets the timer is the one that waits for it. -/
theorem Inv.setTimer (h : s.Inv referenceData) (k : ℕ) :
    ((s.endWaits .cancelled).setLoop k .waiting).Inv referenceData := by
  have hended : (s.endWaits .cancelled).Inv referenceData := h.endWaits (by simp)
  refine hended.frame (List.length_set ..) ?_
  have hcount := count_set_le (s.endWaits .cancelled).loops k .waiting
  rwa [count_endWaits s (by simp)] at hcount

/-- A subscription returns and spawns a loop where there is a quote currency,
and throws where there is none. -/
theorem Inv.doSubscribeWallet (h : s.Inv referenceData) (c : ℕ) :
    (s.doSubscribeWallet c referenceData).Inv referenceData ∧
      (s.doSubscribeWallet c referenceData).onWallet =
        subscriberAfter referenceData s.onWallet (.referenceData c) ∧
      (s.doSubscribeWallet c referenceData).callbacks = s.callbacks ∧
      ((s.doSubscribeWallet c referenceData).loops = s.loops ∨
        (s.doSubscribeWallet c referenceData).loops = s.loops ++ [.requesting]) := by
  obtain ⟨hfound, hno⟩ | ⟨i, currency, hfound, hi, hname⟩ :=
    findQuoteCurrency_cases referenceData.currencies s.quoteCurrencyIndex
  · have hunquoted : ¬Quoted referenceData := by
      rintro ⟨currency, hmem, hname⟩
      exact hno currency hmem hname
    have hnone : s.quoteCurrencyIndex = none := by
      refine Option.eq_none_iff_forall_ne_some.mpr fun i hsome => ?_
      obtain ⟨currency, hi, hname⟩ := h.quoted i hsome
      exact hno currency (List.mem_of_getElem? hi) hname
    rw [hnone] at hfound
    have hthrows : s.doSubscribeWallet c referenceData = { s with
        referenceData
        wallet :=
          { positions := resize s.wallet.positions referenceData.currencies.length
            marginAvailable := resize s.wallet.marginAvailable referenceData.tradingPairs.length }
        quoteCurrencyIndex := none
        calls := s.calls.set c .threw } := by
      simp [FtxWalletClient.doSubscribeWallet, hnone, hfound]
    rw [hthrows]
    refine ⟨⟨fun i hi => absurd hi (by simp), fun hloops => ?_, fun hreturned => ?_, h.oneWaits⟩,
      (if_neg hunquoted).symm, rfl, .inl rfl⟩
    · obtain ⟨i, currency, hi, -⟩ := (h.ready hloops).quoteCurrency
      rw [hnone] at hi
      cases hi
    · obtain hreturned | hthrew := List.mem_or_eq_of_mem_set hreturned
      · exact h.looped hreturned
      · cases hthrew
  · have hquoted : Quoted referenceData := ⟨currency, List.mem_of_getElem? hi, hname⟩
    have hreturns : s.doSubscribeWallet c referenceData = { s with
        referenceData
        wallet :=
          { positions := resize s.wallet.positions referenceData.currencies.length
            marginAvailable := resize s.wallet.marginAvailable referenceData.tradingPairs.length }
        quoteCurrencyIndex := some i
        onWallet := some c
        loops := s.loops ++ [.requesting]
        calls := s.calls.set c .returned } := by
      simp [FtxWalletClient.doSubscribeWallet, hfound]
    rw [hreturns]
    refine ⟨⟨fun j hj => ?_, fun _ => ?_, fun _ => by simp, ?_⟩, (if_pos hquoted).symm, rfl,
      .inr rfl⟩
    · obtain rfl := Option.some.inj hj
      exact ⟨currency, hi, hname⟩
    · exact ⟨rfl, length_resize .., length_resize .., ⟨i, currency, rfl, hi, hname⟩, by simp⟩
    · rw [List.count_append]
      exact h.oneWaits

theorem Inv.setCalls (h : s.Inv referenceData) {calls : List DoSubscribeWallet}
    (hcalls : .returned ∈ calls → .returned ∈ s.calls) : Inv referenceData { s with calls } where
  quoted := h.quoted
  ready hloops := (h.ready hloops).frame calls s.loops
  looped hreturned := h.looped (hcalls hreturned)
  oneWaits := h.oneWaits

/-! ## Every step -/

/-- No request, publication or wait fails. -/
def Label.Succeeds : Label → Prop
  | .balances _ none | .published _ true | .timerError _ => False
  | _ => True

/-- The callback stays and is not called. -/
def Label.Quiet : Label → Prop
  | .referenceData _ | .balances _ (some _) => False
  | _ => True

theorem Label.Quiet.due {label : Label} (h : label.Quiet) (subscriber : Option ℕ) :
    subscriberAfter referenceData subscriber label = subscriber ∧
      dueAt referenceData subscriber label = [] := by
  cases label with
  | referenceData c => exact h.elim
  | balances k response =>
    cases response with
    | none => exact ⟨rfl, rfl⟩
    | some balances => exact h.elim
  | _ => exact ⟨rfl, rfl⟩

/-- All a step can do. -/
inductive StepCase (referenceData : FtxReferenceData) (s s' : FtxWalletClient) (label : Label) :
    Prop where
  | calls (calls : List DoSubscribeWallet) (hquiet : label.Quiet)
      (hcalls : .returned ∈ calls → .returned ∈ s.calls) (hs' : s' = { s with calls })
  | referenceData (c : ℕ) (hlabel : label = .referenceData c)
      (hs' : s' = s.doSubscribeWallet c referenceData)
  | balances (k : ℕ) (balances : List Balance) (hlabel : label = .balances k (some balances))
      (hk : s.loops[k]? = some .requesting) (hstep : s.doUpdatePositions k balances = some s')
  | loop (k : ℕ) (old status : DoUpdatePositions) (hquiet : label.Quiet)
      (hk : s.loops[k]? = some old) (hstatus : status ≠ .waiting)
      (halive : label.Succeeds → status.Alive ∨ old = .cancelled)
      (hs' : s' = s.setLoop k status)
  | timer (k : ℕ) (hquiet : label.Quiet) (hk : s.loops[k]? = some .publishing)
      (hs' : s' = (s.endWaits .cancelled).setLoop k .waiting)
  | expire (hquiet : label.Quiet) (hs' : s' = s.endWaits .expired)

theorem step_cases {label : Label} (hs : step referenceData s label = some s') :
    StepCase referenceData s s' label := by
  cases label with
  | subscribe => exact .calls _ trivial (by simp) (Option.some.inj hs).symm
  | referenceData c =>
    obtain ⟨-, hs⟩ := Option.ite_none_right_eq_some.mp hs
    exact .referenceData c rfl (Option.some.inj hs).symm
  | noReferenceData c =>
    obtain ⟨-, hs⟩ := Option.ite_none_right_eq_some.mp hs
    refine .calls _ trivial (fun hreturned => ?_) (Option.some.inj hs).symm
    exact (List.mem_or_eq_of_mem_set hreturned).resolve_right (by simp)
  | balances k response =>
    cases response with
    | none =>
      obtain ⟨hk, hs⟩ := Option.ite_none_right_eq_some.mp hs
      exact .loop k _ _ trivial hk (by simp) False.elim (Option.some.inj hs).symm
    | some balances =>
      obtain ⟨hk, hs⟩ := Option.ite_none_right_eq_some.mp hs
      exact .balances k balances rfl hk hs
  | published k failed =>
    obtain ⟨hk, hs⟩ := Option.ite_none_right_eq_some.mp hs
    cases failed with
    | true => exact .loop k _ _ trivial hk (by simp) False.elim (Option.some.inj hs).symm
    | false => exact .timer k trivial hk (Option.some.inj hs).symm
  | expire => exact .expire trivial (Option.some.inj hs).symm
  | timerError k =>
    obtain ⟨hk, hs⟩ := Option.ite_none_right_eq_some.mp hs
    exact .loop k _ _ trivial hk (by simp) False.elim (Option.some.inj hs).symm
  | resume k =>
    simp only [step] at hs
    split at hs
    · next hk =>
      exact .loop k _ _ trivial hk (by simp) (fun _ => .inl ⟨by simp, by simp⟩)
        (Option.some.inj hs).symm
    · next hk =>
      exact .loop k _ _ trivial hk (by simp) (fun _ => .inr rfl) (Option.some.inj hs).symm
    · cases hs

theorem Inv.doUpdatePositions (h : s.Inv referenceData) {k : ℕ} {balances : List Balance}
    (hk : s.loops[k]? = some .requesting) (hstep : s.doUpdatePositions k balances = some s') :
    s'.Inv referenceData ∧ s'.onWallet = s.onWallet ∧
      s'.callbacks = s.callbacks ++ dueAt referenceData s.onWallet (.balances k (some balances)) ∧
      s'.loops = s.loops.set k .publishing := by
  have hready := h.ready (List.ne_nil_of_mem (List.mem_of_getElem? hk))
  obtain ⟨c, hc, hupdate⟩ := hready.doUpdatePositions k balances
  rw [hupdate] at hstep
  obtain rfl := Option.some.inj hstep
  have hset : (s.setLoop k .publishing).Inv referenceData := h.setLoop k (by simp)
  refine ⟨⟨h.quoted, fun _ => ?_, hset.looped, hset.oneWaits⟩, rfl, by simp [dueAt, hc], rfl⟩
  exact ⟨hready.loaded, List.length_map .., List.length_replicate .., hready.quoteCurrency,
    hready.onWallet⟩

theorem inv_step (h : s.Inv referenceData) {label : Label}
    (hs : step referenceData s label = some s') : s'.Inv referenceData := by
  obtain ⟨calls, -, hcalls, rfl⟩ | ⟨c, -, rfl⟩ | ⟨k, balances, -, hk, hstep⟩ |
    ⟨k, old, status, -, -, hstatus, -, rfl⟩ | ⟨k, -, -, rfl⟩ | ⟨-, rfl⟩ := step_cases hs
  · exact h.setCalls hcalls
  · exact (h.doSubscribeWallet c).1
  · exact (h.doUpdatePositions hk hstep).1
  · exact h.setLoop k hstatus
  · exact h.setTimer k
  · exact h.endWaits (by simp)

/-- Each response makes one callback. -/
theorem callbacks_step (h : s.Inv referenceData) {label : Label}
    (hs : step referenceData s label = some s') :
    s'.onWallet = subscriberAfter referenceData s.onWallet label ∧
      s'.callbacks = s.callbacks ++ dueAt referenceData s.onWallet label := by
  have hquiet (hlabel : label.Quiet) (honWallet : s'.onWallet = s.onWallet)
      (hcallbacks : s'.callbacks = s.callbacks) :
      s'.onWallet = subscriberAfter referenceData s.onWallet label ∧
        s'.callbacks = s.callbacks ++ dueAt referenceData s.onWallet label := by
    obtain ⟨hafter, hdue⟩ := hlabel.due s.onWallet
    rw [hafter, hdue, List.append_nil]
    exact ⟨honWallet, hcallbacks⟩
  obtain ⟨calls, hlabel, -, rfl⟩ | ⟨c, rfl, rfl⟩ | ⟨k, balances, rfl, hk, hstep⟩ |
    ⟨k, old, status, hlabel, -, -, -, rfl⟩ | ⟨k, hlabel, -, rfl⟩ | ⟨hlabel, rfl⟩ := step_cases hs
  · exact hquiet hlabel rfl rfl
  · obtain ⟨-, honWallet, hcallbacks, -⟩ := h.doSubscribeWallet c
    exact ⟨honWallet, hcallbacks.trans (List.append_nil _).symm⟩
  · obtain ⟨-, honWallet, hcallbacks, -⟩ := h.doUpdatePositions hk hstep
    exact ⟨honWallet, hcallbacks⟩
  · exact hquiet hlabel rfl rfl
  · exact hquiet hlabel rfl rfl
  · exact hquiet hlabel rfl rfl

/-! ## A loop that goes on -/

/-- Some loop goes on. -/
def Live (s : FtxWalletClient) : Prop := s.loops ≠ [] → ∃ loop ∈ s.loops, loop.Alive

theorem live_set {k : ℕ} {old status : DoUpdatePositions} {loops : List DoUpdatePositions}
    (hk : loops[k]? = some old) (hstatus : status.Alive) :
    ∃ loop ∈ loops.set k status, loop.Alive := by
  obtain ⟨hlt, -⟩ := List.getElem?_eq_some_iff.mp hk
  exact ⟨status, List.mem_set hlt status, hstatus⟩

/-- A loop whose wait was cancelled is not the one that goes on. -/
theorem Live.set_cancelled (h : s.Live) {k : ℕ} (hk : s.loops[k]? = some .cancelled)
    (status : DoUpdatePositions) : (s.setLoop k status).Live := by
  intro _
  obtain ⟨loop, hmem, halive⟩ := h (List.ne_nil_of_mem (List.mem_of_getElem? hk))
  obtain ⟨j, hj⟩ := List.mem_iff_getElem?.mp hmem
  have hne : k ≠ j := by
    rintro rfl
    rw [hk] at hj
    exact halive.1 (Option.some.inj hj).symm
  exact ⟨loop, List.mem_of_getElem? ((List.getElem?_set_ne hne).trans hj), halive⟩

/-- The loop that waits goes on when the timer expires. -/
theorem Live.expire (h : s.Live) : (s.endWaits .expired).Live := by
  intro hloops
  obtain ⟨loop, hmem, halive⟩ := h fun hnil => hloops (by simp [endWaits, hnil])
  refine ⟨_, List.mem_map_of_mem hmem, ?_⟩
  split
  · exact ⟨by simp, by simp⟩
  · exact halive

theorem live_step (hinv : s.Inv referenceData) (h : s.Live) {label : Label} (hok : label.Succeeds)
    (hs : step referenceData s label = some s') : s'.Live := by
  obtain ⟨calls, -, -, rfl⟩ | ⟨c, -, rfl⟩ | ⟨k, balances, -, hk, hstep⟩ |
    ⟨k, old, status, -, hk, -, halive, rfl⟩ | ⟨k, -, hk, rfl⟩ | ⟨-, rfl⟩ := step_cases hs
  · exact h
  · obtain ⟨-, -, -, hloops | hloops⟩ := hinv.doSubscribeWallet c
    · rwa [Live, hloops]
    · intro _
      rw [hloops]
      exact ⟨.requesting, by simp, by simp, by simp⟩
  · obtain ⟨-, -, -, hloops⟩ := hinv.doUpdatePositions hk hstep
    rw [Live, hloops]
    exact fun _ => live_set hk ⟨by simp, by simp⟩
  · obtain halive | rfl := halive hok
    · exact fun _ => live_set hk halive
    · exact h.set_cancelled hk status
  · have hended : (s.endWaits .cancelled).loops[k]? = some .publishing := by
      simp [endWaits, hk]
    exact fun _ => live_set hended ⟨by simp, by simp⟩
  · exact h.expire

/-! ## Every run -/

/-- The callbacks of a run. -/
def dueOf (referenceData : FtxReferenceData) : Option ℕ → List Label → List (ℕ × Wallet)
  | _, [] => []
  | subscriber, label :: labels =>
    dueAt referenceData subscriber label ++
      dueOf referenceData (subscriberAfter referenceData subscriber label) labels

theorem callbacks_eq_of_run {labels : List Label} {t : FtxWalletClient} (h : s.Inv referenceData)
    (hrun : run (step referenceData) s labels = some t) :
    t.Inv referenceData ∧
      t.callbacks = s.callbacks ++ dueOf referenceData s.onWallet labels := by
  induction labels generalizing s with
  | nil =>
    obtain rfl := Option.some.inj hrun
    exact ⟨h, (List.append_nil _).symm⟩
  | cons label labels ih =>
    obtain ⟨s', hs', hrest⟩ := run_cons_eq_some.mp hrun
    obtain ⟨honWallet, hcallbacks⟩ := callbacks_step h hs'
    obtain ⟨ht, htcallbacks⟩ := ih (inv_step h hs') hrest
    rw [htcallbacks, hcallbacks, honWallet, List.append_assoc]
    exact ⟨ht, rfl⟩

theorem live_of_run {labels : List Label} {t : FtxWalletClient}
    (hok : ∀ label ∈ labels, label.Succeeds)
    (hrun : run (step referenceData) init labels = some t) : t.Live := by
  have hstep : ∀ s label s', (s.Inv referenceData ∧ s.Live) → label.Succeeds →
      step referenceData s label = some s' → s'.Inv referenceData ∧ s'.Live := by
    intro s label s' h hok hs
    exact ⟨inv_step h.1 hs, live_step h.1 h.2 hok hs⟩
  have hinit : (init.Inv referenceData ∧ init.Live) := ⟨inv_init, fun h => absurd rfl h⟩
  have hlive := invariant_along hstep hinit (along_of_forall_mem hok) hrun
  exact hlive.2

/-- **What the subscriber of the wallet is given.** In every run each balances
response makes one callback, in order, with the wallet of that response, to
the subscription that returned last before it. No loop reads out of range
whatever balances it gets, at most one loop waits for the timer, and while
nothing fails one goes on once a subscription has returned. -/
theorem wallets_of_run {labels : List Label} {t : FtxWalletClient}
    (hrun : run (step referenceData) init labels = some t) :
    t.callbacks = dueOf referenceData none labels ∧
      (∀ k balances, t.loops[k]? = some .requesting →
        (step referenceData t (.balances k (some balances))).isSome) ∧
      t.loops.count .waiting ≤ 1 ∧
      ((∀ label ∈ labels, label.Succeeds) → .returned ∈ t.calls →
        ∃ loop ∈ t.loops, loop.Alive) := by
  obtain ⟨hinv, hcallbacks⟩ := callbacks_eq_of_run inv_init hrun
  refine ⟨hcallbacks, fun k balances hk => ?_, hinv.oneWaits, fun hok hreturned => ?_⟩
  · have hready := hinv.ready (List.ne_nil_of_mem (List.mem_of_getElem? hk))
    obtain ⟨c, -, hupdate⟩ := hready.doUpdatePositions k balances
    rw [step, if_pos hk, hupdate]
    rfl
  · exact live_of_run hok hrun (hinv.looped hreturned)

def solUsd : FtxReferenceData := ⟨[⟨⟨1, "SOL", "SOL/USD"⟩⟩], [⟨"USD"⟩, ⟨"SOL"⟩]⟩

/-- The second subscription takes over the callback and then the timer. -/
def takenOver : List Label :=
  [.subscribe, .subscribe, .referenceData 0, .balances 0 (some [⟨"SOL", 3⟩, ⟨"USD", 100⟩]),
    .published 0 false, .referenceData 1, .balances 1 (some [⟨"USD", 90⟩]), .published 1 false,
    .resume 0, .expire, .resume 1, .balances 1 (some [])]

theorem wallets_of_run_takenOver :
    ∃ t, run (step solUsd) init takenOver = some t ∧
      t.callbacks = [(0, ⟨[100, 3], [100]⟩), (1, ⟨[90, 0], [90]⟩), (1, ⟨[0, 0], [0]⟩)] ∧
      ∃ loop ∈ t.loops, loop.Alive := by
  have hcalls : (run (step solUsd) init takenOver).map (fun t => t.calls) =
      some [.returned, .returned] := by decide +kernel
  obtain ⟨t, ht, hcalls⟩ := Option.map_eq_some_iff.mp hcalls
  obtain ⟨hcallbacks, -, -, hlive⟩ := wallets_of_run ht
  refine ⟨t, ht, hcallbacks.trans (by decide +kernel), hlive ?_ (by simp [hcalls])⟩
  simp [takenOver, Label.Succeeds]

end FtxWalletClient

end Synthfi.Ftx
