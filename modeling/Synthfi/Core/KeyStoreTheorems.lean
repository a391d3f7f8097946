/-
Synthfi.Core.KeyStoreTheorems — the two maps of the key store and its files.

A call inserts its key pair into both maps at once, each only where there is
none; but the constructor fills one of them alone. `mapsAgree_iff` finds the
runs in which the maps agree: no other key is inserted under a registered
name. A key pair is inserted when its write is over, whether it succeeded or
not. `durable_iff` finds that the key pairs can be read back, and the calls
that fail throw, exactly in the runs without a failed write.
-/
import Synthfi.Core.DecimalJson

namespace Synthfi.Core.KeyStore

open Bytes PartialMap Run StreamParser

variable {json : BoostJson} {s s' t : KeyStore json}

/-! ## What a step can do -/

/-- The key pair that a parser holds when it is done. -/
def parsedKeyPair (parser : json.parser.State) : Option KeyPair :=
  if json.parser.done parser then (keyPairOf (json.release parser)).toOption else none

/-- A create call throws, or opens a file that was not there. -/
theorem doCreateKeyPairTag_cases (tag : String) (keyPair : KeyPair) (openFails : Bool) :
    ((openFails || (s.files (getKeyPairPath tag)).isSome) ∧
        s.doCreateKeyPairTag tag keyPair openFails =
          { s with calls := s.calls ++ [.threw .system] }) ∨
      (s.files (getKeyPairPath tag) = none ∧
        s.doCreateKeyPairTag tag keyPair openFails = { s with
          files := Function.update s.files (getKeyPairPath tag) (some [])
          calls := s.calls ++ [.writing tag keyPair (json.serialize keyPair.encBinaryJson)] }) := by
  unfold doCreateKeyPairTag
  split
  · next hopen => exact .inl ⟨hopen, rfl⟩
  · next hopen =>
    rw [Bool.or_eq_true, not_or] at hopen
    exact .inr ⟨Option.not_isSome_iff_eq_none.mp hopen.2, rfl⟩

/-- A load call ends at once, or is at the front of a file. -/
theorem doLoadKeyPair_cases (s : KeyStore json) (tag : String) (openFails : Bool) :
    ∃ call, s.doLoadKeyPair tag openFails = { s with calls := s.calls ++ [call] } ∧
      (call = .returned ∨ (∃ error, call = .threw error) ∨
        (call = .reading tag 0 json.parser.start ∧
          ∃ content, s.files (getKeyPairPath tag) = some content)) := by
  unfold doLoadKeyPair
  split
  · exact ⟨_, rfl, .inl rfl⟩
  · split
    · exact ⟨_, rfl, .inr (.inl ⟨_, rfl⟩)⟩
    · next hopen =>
      rw [Bool.or_eq_true, not_or, Option.isNone_iff_eq_none] at hopen
      exact ⟨_, rfl, .inr (.inr ⟨rfl, Option.ne_none_iff_exists'.mp hopen.2⟩)⟩

/-- A read completes a key pair; otherwise the call has failed or reads on. -/
theorem afterRead_cases (s : KeyStore json) (k : ℕ) (tag : String) (offset : ℕ)
    (parser : json.parser.State) (chunk : List UInt8) :
    (∃ keyPair, chunk ≠ [] ∧ (json.parser.write parser chunk).bind parsedKeyPair = some keyPair ∧
        s.afterRead k tag offset parser chunk = (s.insert tag keyPair).setCall k .returned) ∨
      ((chunk = [] ∨ (json.parser.write parser chunk).bind parsedKeyPair = none) ∧
        ((∃ error, s.afterRead k tag offset parser chunk = s.setCall k (.threw error)) ∨
          ∃ parser', json.parser.write parser chunk = some parser' ∧
            json.parser.done parser' = false ∧
            s.afterRead k tag offset parser chunk =
              s.setCall k (.reading tag (offset + chunk.length) parser'))) := by
  unfold afterRead
  by_cases hchunk : chunk = []
  · rw [if_pos hchunk]
    exact .inr ⟨.inl hchunk, .inl ⟨_, rfl⟩⟩
  · rw [if_neg hchunk]
    cases hwrite : json.parser.write parser chunk with
    | none => exact .inr ⟨.inr rfl, .inl ⟨_, rfl⟩⟩
    | some parser' =>
      simp only [Option.bind_some, parsedKeyPair, finishLoad]
      cases hdone : json.parser.done parser' with
      | false => exact .inr ⟨.inr rfl, .inr ⟨parser', rfl, hdone, rfl⟩⟩
      | true =>
        cases hvalue : keyPairOf (json.release parser') with
        | error error => exact .inr ⟨.inr rfl, .inl ⟨_, rfl⟩⟩
        | ok keyPair => exact .inl ⟨keyPair, hchunk, rfl, rfl⟩

/-- Some bytes of a write are stored: the file grows by them. -/
theorem step_stored {k n : ℕ} (hstep : s.step (.stored k n) = some s') :
    ∃ tag keyPair rest, s.calls[k]? = some (.writing tag keyPair rest) ∧
      s' = s.store k tag keyPair rest n := by
  simp only [step] at hstep
  split at hstep
  · next tag keyPair rest hk => exact ⟨tag, keyPair, rest, hk, (Option.some.inj hstep).symm⟩
  · cases hstep

/-- A write is over when all is stored, or it has failed. -/
theorem step_wrote {k : ℕ} {failed : Bool} (hstep : s.step (.wrote k failed) = some s') :
    ∃ tag keyPair rest, s.calls[k]? = some (.writing tag keyPair rest) ∧
      (failed = true ∨ rest = []) ∧ s' = s.afterWrite k tag keyPair := by
  simp only [step] at hstep
  split at hstep
  · next tag keyPair rest hk =>
    obtain ⟨hover, hstep⟩ := Option.ite_none_right_eq_some.mp hstep
    rw [Bool.or_eq_true, List.isEmpty_iff] at hover
    exact ⟨tag, keyPair, rest, hk, hover, (Option.some.inj hstep).symm⟩
  · cases hstep

/-- A read goes on from where the last one ended. -/
theorem step_read {k n : ℕ} (hstep : s.step (.read k n) = some s') :
    ∃ tag offset parser content, s.calls[k]? = some (.reading tag offset parser) ∧
      s.files (getKeyPairPath tag) = some content ∧ offset + n ≤ content.length ∧
      s' = s.afterRead k tag offset parser ((content.drop offset).take n) := by
  simp only [step] at hstep
  split at hstep
  · next tag offset parser hk =>
    obtain ⟨content, hcontent, hstep⟩ := Option.bind_eq_some_iff.mp hstep
    obtain ⟨⟨hn, -⟩, hstep⟩ := Option.ite_none_right_eq_some.mp hstep
    exact ⟨tag, offset, parser, content, hk, hcontent, hn, (Option.some.inj hstep).symm⟩
  · cases hstep

theorem step_readFails {k : ℕ} (hstep : s.step (.readFails k) = some s') :
    s' = s.setCall k (.threw .system) := by
  simp only [step] at hstep
  split at hstep
  · exact (Option.some.inj hstep).symm
  · cases hstep

/-! ## The maps agree -/

/-- Each key pair's public half is the public key of its tag. -/
def MapsAgree (s : KeyStore json) : Prop :=
  ∀ tag keyPair, s.keyPairs tag = some keyPair → s.publicKeys tag = some keyPair.hash

/-- The two look-ups of a tag then name the same key. -/
theorem MapsAgree.doGetPublicKey (h : s.MapsAgree) {tag : String} {keyPair : KeyPair}
    (hpair : s.doGetKeyPair tag = .ok keyPair) : s.doGetPublicKey tag = .ok keyPair.hash := by
  unfold doGetKeyPair at hpair
  split at hpair
  · cases hpair
  · next held hheld =>
    obtain rfl := Except.ok.inj hpair
    rw [KeyStore.doGetPublicKey, h tag held hheld]

/-- Without a key pair a tag has the key the constructor registered. -/
def OnlyRegistered (s : KeyStore json) : Prop :=
  ∀ tag, s.keyPairs tag = none → s.publicKeys tag = registered tag

/-- What a step inserts, and under which tag: the key pair of a write that is
over, or the one a read completes. -/
def inserted (s : KeyStore json) : Label → Option (String × KeyPair)
  | .wrote k _ =>
    match s.calls[k]? with
    | some (.writing tag keyPair _) => some (tag, keyPair)
    | _ => none
  | .read k n =>
    match s.calls[k]? with
    | some (.reading tag offset parser) =>
      (s.files (getKeyPairPath tag)).bind fun content =>
        if (content.drop offset).take n = [] then none
        else (json.parser.write parser ((content.drop offset).take n)).bind fun parser =>
          (parsedKeyPair parser).map (tag, ·)
    | _ => none
  | _ => none

/-- The steps that keep `MapsAgree`: under a registered name no other key is
inserted. -/
def InsertOk (s : KeyStore json) (label : Label) : Prop :=
  ∀ entry ∈ s.inserted label, s.keyPairs entry.1 = none →
    ∀ publicKey ∈ registered entry.1, publicKey = entry.2.hash

instance (label : Label) : Decidable (s.InsertOk label) := by
  unfold InsertOk
  infer_instance

/-- What a read inserts: the key pair its bytes complete. -/
theorem inserted_read {k offset : ℕ} {tag : String} {parser : json.parser.State}
    {content : List UInt8} (hk : s.calls[k]? = some (.reading tag offset parser))
    (hcontent : s.files (getKeyPairPath tag) = some content) (n : ℕ) :
    s.inserted (.read k n) =
      if (content.drop offset).take n = [] then none
      else ((json.parser.write parser ((content.drop offset).take n)).bind parsedKeyPair).map
        (tag, ·) := by
  simp only [inserted, hk, hcontent, Option.bind_some, Option.map_bind]
  rfl

/-- The maps after a step. -/
theorem maps_of_step {label : Label} (hstep : s.step label = some s') :
    (s.inserted label = none ∧ s'.publicKeys = s.publicKeys ∧ s'.keyPairs = s.keyPairs) ∨
      ∃ tag keyPair, s.inserted label = some (tag, keyPair) ∧
        s'.publicKeys = (s.insert tag keyPair).publicKeys ∧
        s'.keyPairs = (s.insert tag keyPair).keyPairs := by
  have hcreate (tag : String) (keyPair : KeyPair) (openFails : Bool) :
      (s.doCreateKeyPairTag tag keyPair openFails).publicKeys = s.publicKeys ∧
        (s.doCreateKeyPairTag tag keyPair openFails).keyPairs = s.keyPairs := by
    obtain ⟨-, heq⟩ | ⟨-, heq⟩ := doCreateKeyPairTag_cases (s := s) tag keyPair openFails
    · exact heq ▸ ⟨rfl, rfl⟩
    · exact heq ▸ ⟨rfl, rfl⟩
  cases label with
  | createTag tag keyPair openFails =>
    obtain rfl := Option.some.inj hstep
    exact .inl ⟨rfl, hcreate tag keyPair openFails⟩
  | create keyPair openFails =>
    obtain rfl := Option.some.inj hstep
    exact .inl ⟨rfl, hcreate _ keyPair openFails⟩
  | load tag openFails =>
    obtain rfl := Option.some.inj hstep
    obtain ⟨call, heq, -⟩ := s.doLoadKeyPair_cases tag openFails
    exact .inl ⟨rfl, heq ▸ ⟨rfl, rfl⟩⟩
  | stored k n =>
    obtain ⟨tag, keyPair, rest, -, rfl⟩ := step_stored hstep
    exact .inl ⟨rfl, rfl, rfl⟩
  | wrote k failed =>
    obtain ⟨tag, keyPair, rest, hk, -, rfl⟩ := step_wrote hstep
    exact .inr ⟨tag, keyPair, by simp [inserted, hk], rfl, rfl⟩
  | read k n =>
    obtain ⟨tag, offset, parser, content, hk, hcontent, -, rfl⟩ := step_read hstep
    rw [inserted_read hk hcontent]
    obtain ⟨keyPair, hne, hparsed, heq⟩ | ⟨hnone, hcases⟩ :=
      s.afterRead_cases k tag offset parser ((content.drop offset).take n)
    · rw [if_neg hne, hparsed, heq]
      exact .inr ⟨tag, keyPair, rfl, rfl, rfl⟩
    · refine .inl ⟨?_, ?_⟩
      · obtain hchunk | hparsed := hnone
        · rw [if_pos hchunk]
        · rw [hparsed, Option.map_none, ite_self]
      · obtain ⟨error, heq⟩ | ⟨parser', -, -, heq⟩ := hcases
        · exact heq ▸ ⟨rfl, rfl⟩
        · exact heq ▸ ⟨rfl, rfl⟩
  | readFails k =>
    obtain rfl := step_readFails hstep
    exact .inl ⟨rfl, rfl, rfl⟩

/-- An insertion keeps the maps in agreement unless the tag is registered for
another key. -/
theorem mapsAgree_insert (h : s.MapsAgree) (honly : s.OnlyRegistered) (tag : String)
    (keyPair : KeyPair) :
    (s.insert tag keyPair).MapsAgree ↔
      (s.keyPairs tag = none → ∀ publicKey ∈ registered tag, publicKey = keyPair.hash) := by
  constructor
  · intro h' hnone publicKey hregistered
    have hkey : s.publicKeys tag = some publicKey := (honly tag hnone).trans hregistered
    have hpair : (s.insert tag keyPair).keyPairs tag = some keyPair :=
      emplace_eq_some.mpr (.inr ⟨rfl, hnone, rfl⟩)
    have hpublic := h' tag keyPair hpair
    rw [insert, emplace_of_eq_some hkey, hkey, Option.some.injEq] at hpublic
    exact hpublic
  · intro hok tag' keyPair' hpair
    obtain hold | ⟨rfl, hnone, rfl⟩ := emplace_eq_some.mp hpair
    · exact emplace_eq_some.mpr (.inl (h tag' keyPair' hold))
    · cases hregistered : registered tag' with
      | none => exact emplace_eq_some.mpr (.inr ⟨rfl, (honly tag' hnone).trans hregistered, rfl⟩)
      | some publicKey =>
        have heq := hok hnone publicKey hregistered
        exact emplace_eq_some.mpr (.inl ((honly tag' hnone).trans (hregistered.trans
          (congrArg some heq))))

/-- An insertion adds no public key of another name. -/
theorem onlyRegistered_insert (honly : s.OnlyRegistered) (tag : String) (keyPair : KeyPair) :
    (s.insert tag keyPair).OnlyRegistered := by
  intro tag' hnone
  obtain ⟨hne, hnone'⟩ := emplace_eq_none.mp hnone
  rw [← honly tag' hnone']
  exact Function.update_of_ne hne ..

/-- **One step** keeps the maps in agreement exactly if what it inserts may be inserted.
-/
theorem mapsAgree_step {label : Label} (honly : s.OnlyRegistered) (h : s.MapsAgree)
    (hstep : s.step label = some s') :
    s'.OnlyRegistered ∧ (s'.MapsAgree ↔ s.InsertOk label) := by
  unfold OnlyRegistered MapsAgree InsertOk
  obtain ⟨hnone, hpublic, hpairs⟩ | ⟨tag, keyPair, hsome, hpublic, hpairs⟩ := maps_of_step hstep
  · rw [hpublic, hpairs, hnone]
    exact ⟨honly, iff_of_true h (by simp)⟩
  · rw [hpublic, hpairs, hsome]
    refine ⟨onlyRegistered_insert honly tag keyPair,
      (mapsAgree_insert h honly tag keyPair).trans ?_⟩
    simp

/-- **Maps agree.** Over all interleavings of calls with any tags: in every
state of a run every tag with a key pair has its public half as public key
exactly when no step inserts a key pair under a registered name of another
key. -/
theorem mapsAgree_iff {files : String → Option (List UInt8)} {labels : List Label}
    (hrun : run step (init json files) labels = some t) :
    (∀ k u, run step (init json files) (labels.take k) = some u → u.MapsAgree) ↔
      Along step InsertOk (init json files) labels :=
  along_iff_prefixes (fun _ _ _ honly h _ hstep => (mapsAgree_step honly h hstep).1)
    (fun _ _ _ honly h hstep => (mapsAgree_step honly h hstep).2) (fun _ _ => rfl)
    (fun _ _ hpair => by simp [init] at hpair) hrun

/-- Every byte of both halves. -/
def keyPairOfByte (byte : UInt8) : KeyPair := ⟨ByteArr.fill 32 byte, ByteArr.fill 32 byte⟩

/-- A directory with one key pair file. -/
def oneFile (tag : String) (keyPair : KeyPair) (path : String) : Option (List UInt8) :=
  if path = getKeyPairPath tag then some (DecimalJson.serialize keyPair.encBinaryJson) else none

/-- A key pair is created under one tag while two calls load another, and a
third call loads what was created. -/
def createdAndLoaded : List Label :=
  [.load "hot" false, .createTag "cold" (keyPairOfByte 7) false, .load "hot" false, .read 0 1,
    .stored 1 100, .read 2 129, .stored 1 29, .wrote 1 false, .read 0 128, .load "cold" false]

/-- A key pair that is created and one that is loaded. -/
theorem mapsAgree_iff_createdAndLoaded :
    ∃ t, run step (init DecimalJson.json (oneFile "hot" (keyPairOfByte 2))) createdAndLoaded =
        some t ∧
      ∀ k u, run step (init DecimalJson.json (oneFile "hot" (keyPairOfByte 2)))
        (createdAndLoaded.take k) = some u → u.MapsAgree := by
  obtain ⟨t, ht⟩ := Option.isSome_iff_exists.mp
    (show (run step (init DecimalJson.json (oneFile "hot" (keyPairOfByte 2)))
      createdAndLoaded).isSome by decide +kernel)
  exact ⟨t, ht, (mapsAgree_iff ht).mpr (by decide +kernel)⟩

/-- A key pair is created under a name the constructor registers. -/
def createdRegistered : List Label :=
  [.createTag "sysvar_rent" (keyPairOfByte 7) false, .stored 0 129, .wrote 0 false]

/-- A key pair under the name of a built-in public key. -/
theorem mapsAgree_fails :
    ∃ t, run step (init DecimalJson.json fun _ => none) createdRegistered = some t ∧
      t.keyPairs "sysvar_rent" = some (keyPairOfByte 7) ∧
      t.publicKeys "sysvar_rent" = some (decoded getSysvarRent) ∧ ¬ t.MapsAgree := by
  have hend : (run step (init DecimalJson.json fun _ => none) createdRegistered).map
      (fun s => (s.keyPairs "sysvar_rent", s.publicKeys "sysvar_rent")) =
      some (some (keyPairOfByte 7), some (decoded getSysvarRent)) := by decide +kernel
  obtain ⟨t, ht, hend⟩ := Option.map_eq_some_iff.mp hend
  rw [Prod.mk.injEq] at hend
  refine ⟨t, ht, hend.1, hend.2, fun hagree => ?_⟩
  have hpublic := hagree _ _ hend.1
  rw [hend.2] at hpublic
  exact absurd hpublic (by decide +kernel)

/-! ## What a file holds -/

/-- The key pair that reading the content leads to. -/
def readBack (json : BoostJson) (content : List UInt8) : Option KeyPair :=
  (json.parser.write json.parser.start content).bind parsedKeyPair

/-- What is stored behind a key pair does not matter. -/
theorem readBack_append {content : List UInt8} {keyPair : KeyPair}
    (h : readBack json content = some keyPair) (more : List UInt8) :
    readBack json (content ++ more) = some keyPair := by
  obtain ⟨parser, hwrite, hparsed⟩ := Option.bind_eq_some_iff.mp h
  have hdone : json.parser.done parser = true := by
    by_contra hdone
    simp [parsedKeyPair, hdone] at hparsed
  rw [readBack, write_append_of_done hwrite hdone, Option.bind_some, hparsed]

theorem mapM_toNumber {Value : Type} {toNumber : Value → Option UInt8} {values : List Value}
    {bytes : List UInt8} (h : values.map toNumber = bytes.map some) :
    values.mapM toNumber = some bytes := by
  induction values generalizing bytes with
  | nil =>
    cases bytes with
    | nil => rfl
    | cons byte bytes => cases h
  | cons value values ih =>
    cases bytes with
    | nil => cases h
    | cons byte bytes =>
      obtain ⟨hvalue, hvalues⟩ := List.cons.inj h
      simp [List.mapM_cons, hvalue, ih hvalues]

/-- The elements of a hash are read back. -/
theorem hash_initFromBinaryJson {Value : Type} {toNumber : Value → Option UInt8}
    {values : List Value} {hash : Hash} (h : values.map toNumber = hash.1.map some) :
    Hash.initFromBinaryJson toNumber values = some hash := by
  have hlength : values.length = 32 := by
    rw [← hash.2, ← List.length_map (f := toNumber), h, List.length_map]
  rw [Hash.initFromBinaryJson, if_neg (not_not.mpr hlength), mapM_toNumber h, Option.bind_some,
    dif_pos hash.2]

/-- The two halves come back in their places. -/
theorem keyPair_initFromBinaryJson {Value : Type} {toNumber : Value → Option UInt8}
    {values : List Value} {keyPair : KeyPair}
    (h : values.map toNumber = keyPair.encBinaryJson.map some) :
    KeyPair.initFromBinaryJson toNumber values = some keyPair := by
  have hprivate : keyPair.privateKey.1.length = 32 := keyPair.privateKey.2
  have hpublic : keyPair.hash.1.length = 32 := keyPair.hash.2
  have henc : keyPair.encBinaryJson = keyPair.privateKey.1 ++ keyPair.hash.1 := rfl
  have hlength : values.length = 64 := by
    rw [← List.length_map (f := toNumber), h, List.length_map, henc, List.length_append, hprivate,
      hpublic]
  have hfront : (values.take 32).map toNumber = keyPair.privateKey.1.map some := by
    rw [List.map_take, h, henc, ← List.map_take, List.take_left' hprivate]
  have hback : (values.drop 32).map toNumber = keyPair.hash.1.map some := by
    rw [List.map_drop, h, henc, ← List.map_drop, List.drop_left' hprivate]
  rw [KeyPair.initFromBinaryJson, if_neg (not_not.mpr hlength), hash_initFromBinaryJson hfront,
    Option.bind_some, hash_initFromBinaryJson hback, Option.map_some]

/-- A key pair that was written out is read back. -/
theorem readBack_serialize (hjson : json.Inverse) (keyPair : KeyPair) :
    readBack json (json.serialize keyPair.encBinaryJson) = some keyPair := by
  obtain ⟨parser, values, hwrite, hdone, harray, hvalues⟩ := hjson.serialize keyPair.encBinaryJson
  rw [readBack, hwrite, Option.bind_some, parsedKeyPair, hdone, if_pos rfl]
  simp only [keyPairOf, harray, keyPair_initFromBinaryJson hvalues]
  rfl

/-! ## Invariant of the files -/

/-- What a call knows of the file it is at: all that it wrote is there, or
all that it read. -/
def CallKept (json : BoostJson) (files : String → Option (List UInt8)) :
    KeyStoreCall json.parser.State → Prop
  | .writing tag keyPair rest =>
    ∃ content, files (getKeyPairPath tag) = some content ∧
      content ++ rest = json.serialize keyPair.encBinaryJson
  | .reading tag offset parser =>
    ∃ content, files (getKeyPairPath tag) = some content ∧ offset ≤ content.length ∧
      json.parser.write json.parser.start (content.take offset) = some parser ∧
      json.parser.done parser = false
  | _ => True

/-- The file of a tag holds its key pair. -/
def Stored (files : String → Option (List UInt8)) (json : BoostJson) (tag : String)
    (keyPair : KeyPair) : Prop :=
  ∃ content, files (getKeyPairPath tag) = some content ∧ readBack json content = some keyPair

structure Kept (s : KeyStore json) : Prop where
  stored : ∀ tag keyPair, s.keyPairs tag = some keyPair → Stored s.files json tag keyPair
  calls : ∀ (k : ℕ) call, s.calls[k]? = some call → CallKept json s.files call
  /-- A file has one writer. -/
  writer : ∀ (k k' : ℕ) tag keyPair keyPair' rest rest',
    s.calls[k]? = some (.writing tag keyPair rest) →
      s.calls[k']? = some (.writing tag keyPair' rest') → k = k'

/-! ## Files grow -/

theorem getKeyPairPath_injective {tag tag' : String}
    (h : getKeyPairPath tag = getKeyPairPath tag') : tag = tag' :=
  (String.append_left_inj _).mp ((String.append_left_inj _).mp h)

/-- What is stored stays stored when a file grows. -/
theorem Stored.update_append {files : String → Option (List UInt8)} {tag : String}
    {keyPair : KeyPair} (h : Stored files json tag keyPair) (path : String) (more : List UInt8) :
    Stored (Function.update files path ((files path).map (· ++ more))) json tag keyPair := by
  obtain ⟨content, hcontent, hread⟩ := h
  by_cases heq : getKeyPairPath tag = path
  · exact ⟨content ++ more, by rw [heq, Function.update_self, ← heq, hcontent, Option.map_some],
      readBack_append hread more⟩
  · exact ⟨content, (Function.update_of_ne heq ..).trans hcontent, hread⟩

/-- A reader's file may grow. -/
theorem CallKept.reading_append {files : String → Option (List UInt8)} {tag : String} {offset : ℕ}
    {parser : json.parser.State} (h : CallKept json files (.reading tag offset parser))
    (path : String) (more : List UInt8) :
    CallKept json (Function.update files path ((files path).map (· ++ more)))
      (.reading tag offset parser) := by
  obtain ⟨content, hcontent, hle, hwrite, hdone⟩ := h
  by_cases heq : getKeyPairPath tag = path
  · refine ⟨content ++ more, by rw [heq, Function.update_self, ← heq, hcontent, Option.map_some],
      by simp; omega, ?_, hdone⟩
    rw [List.take_append_of_le_length hle, hwrite]
  · exact ⟨content, (Function.update_of_ne heq ..).trans hcontent, hle, hwrite, hdone⟩

/-- A file that appears is at no call's. -/
theorem CallKept.update_new {files : String → Option (List UInt8)}
    {call : KeyStoreCall json.parser.State} (h : CallKept json files call) {path : String}
    (hnone : files path = none) (content : List UInt8) :
    CallKept json (Function.update files path (some content)) call := by
  have hkeep {tag : String} {content' : List UInt8}
      (hcontent : files (getKeyPairPath tag) = some content') :
      Function.update files path (some content) (getKeyPairPath tag) = some content' := by
    refine (Function.update_of_ne ?_ ..).trans hcontent
    rintro heq
    simp [heq, hnone] at hcontent
  cases call with
  | writing tag keyPair rest =>
    obtain ⟨content', hcontent, hrest⟩ := h
    exact ⟨content', hkeep hcontent, hrest⟩
  | reading tag offset parser =>
    obtain ⟨content', hcontent, hrest⟩ := h
    exact ⟨content', hkeep hcontent, hrest⟩
  | returned => trivial
  | threw error => trivial

/-! ## Calls -/

theorem getElem?_concat_eq_some {α : Type} {items : List α} {a b : α} {k : ℕ}
    (h : (items ++ [a])[k]? = some b) : items[k]? = some b ∨ (k = items.length ∧ a = b) := by
  by_cases hk : k < items.length
  · rw [List.getElem?_append_left hk] at h
    exact .inl h
  · rw [List.getElem?_append_right (by omega)] at h
    obtain ⟨hlt, hb⟩ := List.getElem?_eq_some_iff.mp h
    simp only [List.length_singleton] at hlt
    exact .inr ⟨by omega, by simpa using hb⟩

theorem getElem?_set_eq_some {α : Type} {items : List α} {a b : α} {k k' : ℕ}
    (h : (items.set k a)[k']? = some b) : (k' ≠ k ∧ items[k']? = some b) ∨ (k' = k ∧ a = b) := by
  by_cases hk : k' = k
  · subst hk
    obtain ⟨hlt, hb⟩ := List.getElem?_eq_some_iff.mp h
    exact .inr ⟨rfl, by simpa using hb⟩
  · rw [List.getElem?_set_ne (Ne.symm hk)] at h
    exact .inl ⟨hk, h⟩

/-- Not a call that writes. -/
def NotWriting (call : KeyStoreCall json.parser.State) : Prop :=
  ∀ tag keyPair rest, call ≠ .writing tag keyPair rest

theorem notWriting_returned : @NotWriting json .returned := nofun

theorem notWriting_threw (error : KeyStoreError) : @NotWriting json (.threw error) := nofun

theorem notWriting_reading (tag : String) (offset : ℕ) (parser : json.parser.State) :
    NotWriting (.reading tag offset parser) := nofun

theorem Kept.addCall (h : s.Kept) {call : KeyStoreCall json.parser.State}
    (hcall : CallKept json s.files call) (hnot : NotWriting call) :
    Kept { s with calls := s.calls ++ [call] } where
  stored := h.stored
  calls k other hk := by
    obtain hold | ⟨-, rfl⟩ := getElem?_concat_eq_some hk
    · exact h.calls k other hold
    · exact hcall
  writer k k' tag keyPair keyPair' rest rest' hk hk' := by
    obtain hold | ⟨-, heq⟩ := getElem?_concat_eq_some hk
    · obtain hold' | ⟨-, heq⟩ := getElem?_concat_eq_some hk'
      · exact h.writer k k' tag keyPair keyPair' rest rest' hold hold'
      · exact absurd heq (hnot tag keyPair' rest')
    · exact absurd heq (hnot tag keyPair rest)

theorem Kept.setCall (h : s.Kept) (k : ℕ) {call : KeyStoreCall json.parser.State}
    (hcall : CallKept json s.files call) (hnot : NotWriting call) : (s.setCall k call).Kept where
  stored := h.stored
  calls k' other hk := by
    obtain ⟨-, hold⟩ | ⟨-, rfl⟩ := getElem?_set_eq_some hk
    · exact h.calls k' other hold
    · exact hcall
  writer k' k'' tag keyPair keyPair' rest rest' hk hk' := by
    obtain ⟨-, hold⟩ | ⟨-, heq⟩ := getElem?_set_eq_some hk
    · obtain ⟨-, hold'⟩ | ⟨-, heq⟩ := getElem?_set_eq_some hk'
      · exact h.writer k' k'' tag keyPair keyPair' rest rest' hold hold'
      · exact absurd heq (hnot tag keyPair' rest')
    · exact absurd heq (hnot tag keyPair rest)

/-- A key pair that is stored may be inserted. -/
theorem Kept.insert (h : s.Kept) {tag : String} {keyPair : KeyPair}
    (hstored : Stored s.files json tag keyPair) : (s.insert tag keyPair).Kept where
  stored tag' keyPair' hpair := by
    obtain hold | ⟨rfl, -, rfl⟩ := emplace_eq_some.mp hpair
    · exact h.stored tag' keyPair' hold
    · exact hstored
  calls := h.calls
  writer := h.writer

/-- The file of a new key pair is new. -/
theorem Kept.doCreateKeyPairTag (h : s.Kept) (tag : String) (keyPair : KeyPair)
    (openFails : Bool) : (s.doCreateKeyPairTag tag keyPair openFails).Kept := by
  obtain ⟨-, heq⟩ | ⟨hnone, heq⟩ := doCreateKeyPairTag_cases (s := s) tag keyPair openFails
  · rw [heq]
    exact h.addCall trivial (notWriting_threw _)
  · rw [heq]
    have hother {k : ℕ} {tag' : String} {keyPair' : KeyPair} {rest' : List UInt8}
        (hk : s.calls[k]? = some (.writing tag' keyPair' rest')) : tag' ≠ tag := by
      rintro rfl
      obtain ⟨content, hcontent, -⟩ := h.calls k _ hk
      simp [hnone] at hcontent
    refine ⟨fun tag' keyPair' hpair => ?_, fun k call hk => ?_,
      fun k k' tag' keyPair' keyPair'' rest rest' hk hk' => ?_⟩
    · obtain ⟨content, hcontent, hread⟩ := h.stored tag' keyPair' hpair
      refine ⟨content, (Function.update_of_ne ?_ ..).trans hcontent, hread⟩
      intro heq
      simp [heq, hnone] at hcontent
    · obtain hold | ⟨-, rfl⟩ := getElem?_concat_eq_some hk
      · exact (h.calls k call hold).update_new hnone []
      · exact ⟨[], Function.update_self .., rfl⟩
    · obtain hold | ⟨hlast, heq⟩ := getElem?_concat_eq_some hk
      · obtain hold' | ⟨-, heq⟩ := getElem?_concat_eq_some hk'
        · exact h.writer k k' tag' keyPair' keyPair'' rest rest' hold hold'
        · cases heq
          exact absurd rfl (hother hold)
      · cases heq
        obtain hold' | ⟨hlast', -⟩ := getElem?_concat_eq_some hk'
        · exact absurd rfl (hother hold')
        · rw [hlast, hlast']

theorem store_files (k : ℕ) (tag : String) (keyPair : KeyPair) (rest : List UInt8) (n : ℕ) :
    (s.store k tag keyPair rest n).files = Function.update s.files (getKeyPairPath tag)
      ((s.files (getKeyPairPath tag)).map (· ++ rest.take n)) := rfl

/-- A writer's file grows by what it stores. -/
theorem Kept.store (h : s.Kept) {k : ℕ} {tag : String} {keyPair : KeyPair} {rest : List UInt8}
    (hk : s.calls[k]? = some (.writing tag keyPair rest)) (n : ℕ) :
    (s.store k tag keyPair rest n).Kept := by
  refine ⟨fun tag' keyPair' hpair => ?_, fun k' call hk' => ?_,
    fun k' k'' tag' keyPair' keyPair'' rest' rest'' hk' hk'' => ?_⟩
  · exact (h.stored tag' keyPair' hpair).update_append (getKeyPairPath tag) (rest.take n)
  · obtain ⟨hne, hold⟩ | ⟨-, rfl⟩ := getElem?_set_eq_some hk'
    · cases call with
      | writing tag' keyPair' rest' =>
        obtain ⟨content, hcontent, hrest⟩ := h.calls k' _ hold
        have hpath : getKeyPairPath tag' ≠ getKeyPairPath tag := by
          intro heq
          obtain rfl := getKeyPairPath_injective heq
          exact hne (h.writer k' k tag' keyPair' keyPair rest' rest hold hk)
        exact ⟨content, (Function.update_of_ne hpath ..).trans hcontent, hrest⟩
      | reading tag' offset parser =>
        exact (h.calls k' _ hold).reading_append (getKeyPairPath tag) (rest.take n)
      | returned => trivial
      | threw error => trivial
    · obtain ⟨content, hcontent, hrest⟩ := h.calls k _ hk
      refine ⟨content ++ rest.take n, ?_, ?_⟩
      · rw [store_files, Function.update_self, hcontent, Option.map_some]
      · rw [List.append_assoc, List.take_append_drop, hrest]
  · have hback {k' : ℕ} {tag' : String} {keyPair' : KeyPair} {rest' : List UInt8}
        (hk' : (s.calls.set k (.writing tag keyPair (rest.drop n)))[k']? =
          some (.writing tag' keyPair' rest')) :
        ∃ keyPair' rest', s.calls[k']? = some (.writing tag' keyPair' rest') := by
      obtain ⟨-, hold⟩ | ⟨rfl, heq⟩ := getElem?_set_eq_some hk'
      · exact ⟨_, _, hold⟩
      · cases heq
        exact ⟨_, _, hk⟩
    obtain ⟨_, _, hold⟩ := hback hk'
    obtain ⟨_, _, hold'⟩ := hback hk''
    exact h.writer k' k'' tag' _ _ _ _ hold hold'

/-- The start of a load keeps it. -/
theorem Kept.doLoadKeyPair (h : s.Kept) (hjson : json.Inverse) (tag : String)
    (openFails : Bool) : (s.doLoadKeyPair tag openFails).Kept := by
  obtain ⟨call, heq, hcall⟩ := s.doLoadKeyPair_cases tag openFails
  rw [heq]
  obtain rfl | ⟨error, rfl⟩ | ⟨rfl, content, hcontent⟩ := hcall
  · exact h.addCall trivial notWriting_returned
  · exact h.addCall trivial (notWriting_threw error)
  · have hkept : CallKept json s.files (.reading tag 0 json.parser.start) :=
      ⟨content, hcontent, Nat.zero_le _, rfl, hjson.notDone⟩
    exact h.addCall hkept (notWriting_reading tag 0 _)

/-- A write that succeeded has stored all of it. -/
theorem Kept.afterWrite (h : s.Kept) (hjson : json.Inverse) {k : ℕ} {tag : String}
    {keyPair : KeyPair} (hk : s.calls[k]? = some (.writing tag keyPair [])) :
    (s.afterWrite k tag keyPair).Kept := by
  obtain ⟨content, hcontent, hrest⟩ := h.calls k _ hk
  rw [List.append_nil] at hrest
  have hstored : Stored s.files json tag keyPair :=
    ⟨content, hcontent, hrest ▸ readBack_serialize hjson keyPair⟩
  exact (h.insert hstored).setCall k trivial notWriting_returned

/-- The bytes a read adds to those read before. -/
theorem write_take_add {content : List UInt8} {offset n : ℕ} {parser : json.parser.State}
    (hread : json.parser.write json.parser.start (content.take offset) = some parser) :
    json.parser.write json.parser.start (content.take (offset + n)) =
      json.parser.write parser ((content.drop offset).take n) := by
  rw [List.take_add, write_append, hread, Option.bind_some]

/-- A read keeps it: the key pair at the end of the file is that of the file. -/
theorem Kept.afterRead (h : s.Kept) {k n offset : ℕ} {tag : String} {parser : json.parser.State}
    {content : List UInt8} (hk : s.calls[k]? = some (.reading tag offset parser))
    (hcontent : s.files (getKeyPairPath tag) = some content) (hn : offset + n ≤ content.length) :
    (s.afterRead k tag offset parser ((content.drop offset).take n)).Kept := by
  obtain ⟨content', hcontent', -, hread, -⟩ := h.calls k _ hk
  obtain rfl : content = content' := Option.some.inj (hcontent.symm.trans hcontent')
  have htake := write_take_add (n := n) hread
  obtain ⟨keyPair, -, hparsed, heq⟩ | ⟨-, ⟨error, heq⟩ | ⟨parser', hwrite, hdone, heq⟩⟩ :=
    s.afterRead_cases k tag offset parser ((content.drop offset).take n)
  · have hback : readBack json (content.take (offset + n)) = some keyPair := by
      rw [readBack, htake, hparsed]
    have hback' := readBack_append hback (content.drop (offset + n))
    rw [List.take_append_drop] at hback'
    rw [heq]
    exact (h.insert ⟨content, hcontent, hback'⟩).setCall k trivial notWriting_returned
  · rw [heq]
    exact h.setCall k trivial (notWriting_threw error)
  · have hlength : ((content.drop offset).take n).length = n := by
      rw [List.length_take, List.length_drop]
      omega
    rw [heq, hlength]
    exact h.setCall k ⟨content, hcontent, hn, htake.trans hwrite, hdone⟩ (notWriting_reading _ _ _)

/-- A step that is not the end of a failed write. -/
theorem Kept.step (h : s.Kept) (hjson : json.Inverse) {label : Label}
    (hlabel : ∀ k, label ≠ .wrote k true) (hstep : s.step label = some s') : s'.Kept := by
  cases label with
  | createTag tag keyPair openFails =>
    obtain rfl := Option.some.inj hstep
    exact h.doCreateKeyPairTag tag keyPair openFails
  | create keyPair openFails =>
    obtain rfl := Option.some.inj hstep
    exact h.doCreateKeyPairTag _ keyPair openFails
  | load tag openFails =>
    obtain rfl := Option.some.inj hstep
    exact h.doLoadKeyPair hjson tag openFails
  | stored k n =>
    obtain ⟨tag, keyPair, rest, hk, rfl⟩ := step_stored hstep
    exact h.store hk n
  | wrote k failed =>
    obtain ⟨tag, keyPair, rest, hk, rfl | rfl, rfl⟩ := step_wrote hstep
    · exact absurd rfl (hlabel k)
    · exact h.afterWrite hjson hk
  | read k n =>
    obtain ⟨tag, offset, parser, content, hk, hcontent, hn, rfl⟩ := step_read hstep
    exact h.afterRead hk hcontent hn
  | readFails k =>
    obtain rfl := step_readFails hstep
    exact h.setCall k trivial (notWriting_threw _)

theorem kept_init (files : String → Option (List UInt8)) : (init json files).Kept :=
  ⟨fun _ _ hpair => by simp [init] at hpair, fun _ _ hk => by simp [init] at hk,
    fun _ _ _ _ _ _ _ hk => by simp [init] at hk⟩

/-! ## A fresh key store reads it back -/

/-- A load of the tag by a fresh key store, with reads of the given sizes. -/
def loadLabels (tag : String) (sizes : List ℕ) : List Label :=
  .load tag false :: sizes.map (.read 0)

/-- The load has returned, with this key pair. -/
def Loaded (s : KeyStore json) (tag : String) (keyPair : KeyPair) : Prop :=
  s.calls = [.returned] ∧ s.keyPairs tag = some keyPair

/-- Whatever the sizes of its reads, `do_load_key_pair` of a fresh key store
over the files is still reading or has returned with the key pair, and some
reads get it there. -/
structure ReadsBack (json : BoostJson) (files : String → Option (List UInt8)) (tag : String)
    (keyPair : KeyPair) : Prop where
  sound : ∀ sizes (t : KeyStore json), (∀ n ∈ sizes, 0 < n) →
    run step (init json files) (loadLabels tag sizes) = some t →
      (∃ offset parser, t.calls = [.reading tag offset parser]) ∨ t.Loaded tag keyPair
  complete : ∃ sizes, ∃ t : KeyStore json, (∀ n ∈ sizes, 0 < n) ∧
    run step (init json files) (loadLabels tag sizes) = some t ∧ t.Loaded tag keyPair

/-- A fresh key store in the middle of a load. -/
structure Loading (s : KeyStore json) (tag : String) (content : List UInt8) (offset : ℕ)
    (parser : json.parser.State) : Prop where
  calls : s.calls = [.reading tag offset parser]
  file : s.files (getKeyPairPath tag) = some content
  absent : s.keyPairs tag = none
  le_length : offset ≤ content.length
  read : json.parser.write json.parser.start (content.take offset) = some parser
  notDone : json.parser.done parser = false

/-- A read brings the load on, or ends it with the key pair. -/
theorem Loading.read_step {tag : String} {content : List UInt8} {offset n : ℕ}
    {parser : json.parser.State} {keyPair : KeyPair} (h : Loading s tag content offset parser)
    (hback : readBack json content = some keyPair) (hpos : 0 < n)
    (hstep : s.step (.read 0 n) = some s') :
    (∃ parser', Loading s' tag content (offset + n) parser') ∨ s'.Loaded tag keyPair := by
  have hcall : s.calls[0]? = some (.reading tag offset parser) := by simp [h.calls]
  simp only [KeyStore.step, hcall, h.file, Option.bind_some] at hstep
  obtain ⟨⟨hn, -⟩, hstep⟩ := Option.ite_none_right_eq_some.mp hstep
  obtain rfl := Option.some.inj hstep
  have hlength : ((content.drop offset).take n).length = n := by
    rw [List.length_take, List.length_drop]
    omega
  have hne : (content.drop offset).take n ≠ [] := by
    intro hnil
    rw [hnil, List.length_nil] at hlength
    omega
  obtain ⟨last, hlast, hparsed⟩ := Option.bind_eq_some_iff.mp hback
  have hsplit := write_append json.parser.start (content.take (offset + n))
    (content.drop (offset + n))
  rw [List.take_append_drop, hlast, write_take_add h.read] at hsplit
  obtain ⟨parser', hwrite, hrest⟩ := Option.bind_eq_some_iff.mp hsplit.symm
  unfold afterRead
  simp only [if_neg hne, hwrite]
  cases hdone : json.parser.done parser' with
  | false =>
    refine .inl ⟨parser', ?_, h.file, h.absent, hn, (write_take_add h.read).trans hwrite, hdone⟩
    simp [setCall, h.calls, hlength]
  | true =>
    obtain rfl : parser' = last := by
      rw [write_of_done hdone, Option.some.injEq] at hrest
      exact hrest
    have hvalue : keyPairOf (json.release parser') = .ok keyPair := by
      rw [parsedKeyPair, hdone, if_pos rfl] at hparsed
      cases hvalue : keyPairOf (json.release parser') with
      | error error => simp [hvalue, Except.toOption] at hparsed
      | ok keyPair' => simpa [hvalue, Except.toOption] using hparsed
    refine .inr ⟨?_, ?_⟩
    · simp [finishLoad, hvalue, setCall, insert, h.calls]
    · simp only [finishLoad, hvalue, if_true, setCall, insert]
      exact emplace_eq_some.mpr (.inr ⟨rfl, h.absent, rfl⟩)

/-- A load that has returned reads no more. -/
theorem Loaded.step_read {tag : String} {keyPair : KeyPair} (h : s.Loaded tag keyPair) (n : ℕ) :
    s.step (.read 0 n) = none := by
  simp [KeyStore.step, h.1]

/-- **Loading ends** with the key pair of the file, whatever the reads bring at a time.
-/
theorem Loading.read_run {tag : String} {content : List UInt8} {offset : ℕ}
    {parser : json.parser.State} {keyPair : KeyPair} (h : Loading s tag content offset parser)
    (hback : readBack json content = some keyPair) {sizes : List ℕ} (hpos : ∀ n ∈ sizes, 0 < n)
    (hrun : run step s (sizes.map (.read 0)) = some t) :
    (∃ offset parser, t.calls = [.reading tag offset parser]) ∨ t.Loaded tag keyPair := by
  induction sizes generalizing s offset parser with
  | nil =>
    obtain rfl := Option.some.inj hrun
    exact .inl ⟨offset, parser, h.calls⟩
  | cons n sizes ih =>
    obtain ⟨hn, hsizes⟩ := List.forall_mem_cons.mp hpos
    obtain ⟨s', hstep, hrest⟩ := run_cons_eq_some.mp hrun
    obtain ⟨parser', h'⟩ | h' := h.read_step hback hn hstep
    · exact ih h' hsizes hrest
    · cases sizes with
      | nil =>
        obtain rfl := Option.some.inj hrest
        exact .inr h'
      | cons n' sizes =>
        obtain ⟨s'', hstep', -⟩ := run_cons_eq_some.mp hrest
        cases (h'.step_read n').symm.trans hstep'

/-- Byte by byte, by induction on what is left of the file. -/
theorem Loading.exists_read_run {tag : String} {content : List UInt8} {offset : ℕ}
    {parser : json.parser.State} {keyPair : KeyPair} (h : Loading s tag content offset parser)
    (hback : readBack json content = some keyPair) :
    ∃ sizes : List ℕ, ∃ t : KeyStore json, (∀ n ∈ sizes, 0 < n) ∧
      run step s (sizes.map (.read 0)) = some t ∧ t.Loaded tag keyPair := by
  induction hleft : content.length - offset generalizing s offset parser with
  | zero =>
    have hle := h.le_length
    obtain rfl : offset = content.length := by omega
    have hread := h.read
    rw [List.take_length] at hread
    simp [readBack, hread, parsedKeyPair, h.notDone] at hback
  | succ left ih =>
    have hcall : s.calls[0]? = some (.reading tag offset parser) := by simp [h.calls]
    have hn : offset + 1 ≤ content.length ∧ 1 ≤ 1024 := ⟨by omega, by omega⟩
    have hstep : s.step (.read 0 1) =
        some (s.afterRead 0 tag offset parser ((content.drop offset).take 1)) := by
      simp only [KeyStore.step, hcall, h.file, Option.bind_some, if_pos hn]
    obtain ⟨parser', h'⟩ | h' := h.read_step hback Nat.one_pos hstep
    · obtain ⟨sizes, t, hsizes, hrun, ht⟩ := ih h' (by omega)
      exact ⟨1 :: sizes, t, List.forall_mem_cons.mpr ⟨Nat.one_pos, hsizes⟩,
        run_cons_eq_some.mpr ⟨_, hstep, hrun⟩, ht⟩
    · exact ⟨[1], _, by simp, run_cons_eq_some.mpr ⟨_, hstep, rfl⟩, h'⟩

/-- What is stored is read back. -/
theorem readsBack_of_stored (hjson : json.Inverse) {files : String → Option (List UInt8)}
    {tag : String} {keyPair : KeyPair} (h : Stored files json tag keyPair) :
    ReadsBack json files tag keyPair := by
  obtain ⟨content, hcontent, hback⟩ := h
  have hload : (init json files).step (.load tag false) =
      some { init json files with calls := [.reading tag 0 json.parser.start] } := by
    simp [KeyStore.step, doLoadKeyPair, init, hcontent]
  have hloading : Loading { init json files with calls := [.reading tag 0 json.parser.start] }
      tag content 0 json.parser.start :=
    ⟨rfl, hcontent, rfl, Nat.zero_le _, rfl, hjson.notDone⟩
  refine ⟨fun sizes t hpos hrun => ?_, ?_⟩
  · obtain ⟨s', hstep, hrest⟩ := run_cons_eq_some.mp hrun
    obtain rfl := Option.some.inj (hload.symm.trans hstep)
    exact hloading.read_run hback hpos hrest
  · obtain ⟨sizes, t, hpos, hrun, ht⟩ := hloading.exists_read_run hback
    exact ⟨sizes, t, hpos, run_cons_eq_some.mpr ⟨_, hload, hrun⟩, ht⟩

theorem files_of_read {tag : String} {label : Label}
    (hlabel : (∃ openFails, label = .load tag openFails) ∨ ∃ n, label = .read 0 n)
    (hstep : s.step label = some s') : s'.files = s.files := by
  obtain ⟨openFails, rfl⟩ | ⟨n, rfl⟩ := hlabel
  · obtain rfl := Option.some.inj hstep
    obtain ⟨call, heq, -⟩ := s.doLoadKeyPair_cases tag openFails
    rw [heq]
  · obtain ⟨tag', offset, parser, content, -, -, -, rfl⟩ := step_read hstep
    obtain ⟨keyPair, -, -, heq⟩ | ⟨-, ⟨error, heq⟩ | ⟨parser', -, -, heq⟩⟩ :=
      s.afterRead_cases 0 tag' offset parser ((content.drop offset).take n)
    · rw [heq]
      rfl
    · rw [heq]
      rfl
    · rw [heq]
      rfl

/-- Only what the file holds is read back. -/
theorem stored_of_readsBack (hjson : json.Inverse) {files : String → Option (List UInt8)}
    {tag : String} {keyPair : KeyPair} (h : ReadsBack json files tag keyPair) :
    Stored files json tag keyPair := by
  obtain ⟨sizes, t, -, hrun, -, hpair⟩ := h.complete
  have hlabels : ∀ label ∈ loadLabels tag sizes,
      (∃ openFails, label = .load tag openFails) ∨ ∃ n, label = .read 0 n := by
    simp [loadLabels]
  have hkeep (s : KeyStore json) (label : Label) (s' : KeyStore json)
      (h : s.Kept ∧ s.files = files)
      (hlabel : (∃ openFails, label = .load tag openFails) ∨ ∃ n, label = .read 0 n)
      (hs : s.step label = some s') : s'.Kept ∧ s'.files = files := by
    refine ⟨h.1.step hjson ?_ hs, (files_of_read hlabel hs).trans h.2⟩
    rintro k rfl
    simp at hlabel
  have hkept : t.Kept ∧ t.files = files :=
    invariant_along hkeep ⟨kept_init files, rfl⟩ (along_of_forall_mem hlabels) hrun
  exact hkept.2 ▸ hkept.1.stored tag keyPair hpair

/-! ## Durability -/

/-- Every key pair can be read back from the file of its tag. -/
def Durable (s : KeyStore json) : Prop :=
  ∀ tag keyPair, s.keyPairs tag = some keyPair → ReadsBack json s.files tag keyPair

/-- The create call whose open or write a step fails. -/
def failing (s : KeyStore json) : Label → Option ℕ
  | .createTag tag _ openFails =>
    if openFails || (s.files (getKeyPairPath tag)).isSome then some s.calls.length else none
  | .create keyPair openFails =>
    if openFails || (s.files (getKeyPairPath keyPair.hash.encBase58Text)).isSome then
      some s.calls.length
    else none
  | .wrote k true => some k
  | _ => none

/-- Such a call throws and leaves the maps as they are. -/
def FailureThrows (s : KeyStore json) (label : Label) (s' : KeyStore json) : Prop :=
  ∀ k ∈ s.failing label, (∃ error, s'.calls[k]? = some (.threw error)) ∧
    s'.publicKeys = s.publicKeys ∧ s'.keyPairs = s.keyPairs

/-- Failures other than of a write throw. -/
theorem failureThrows_of_not_wrote {label : Label} (hlabel : ∀ k, label ≠ .wrote k true)
    (hstep : s.step label = some s') : FailureThrows s label s' := by
  have hcreate (tag : String) (keyPair : KeyPair) (openFails : Bool)
      (hopen : openFails || (s.files (getKeyPairPath tag)).isSome) :
      s.doCreateKeyPairTag tag keyPair openFails =
        { s with calls := s.calls ++ [.threw .system] } := by
    rw [doCreateKeyPairTag, if_pos hopen]
  intro k hk
  cases label with
  | createTag tag keyPair openFails =>
    obtain ⟨hopen, hk⟩ := Option.ite_none_right_eq_some.mp hk
    obtain rfl := Option.some.inj hk
    obtain rfl := Option.some.inj hstep
    rw [hcreate tag keyPair openFails hopen]
    exact ⟨⟨.system, by simp⟩, rfl, rfl⟩
  | create keyPair openFails =>
    obtain ⟨hopen, hk⟩ := Option.ite_none_right_eq_some.mp hk
    obtain rfl := Option.some.inj hk
    obtain rfl := Option.some.inj hstep
    rw [doCreateKeyPair, hcreate _ keyPair openFails hopen]
    exact ⟨⟨.system, by simp⟩, rfl, rfl⟩
  | wrote k' failed =>
    cases failed with
    | true => exact absurd rfl (hlabel k')
    | false => cases hk
  | load tag openFails => cases hk
  | stored k' n => cases hk
  | read k' n => cases hk
  | readFails k' => cases hk

/-- A call whose write fails returns. -/
theorem not_failureThrows_wrote {k : ℕ} (hstep : s.step (.wrote k true) = some s') :
    ¬ FailureThrows s (.wrote k true) s' := by
  intro hthrows
  obtain ⟨⟨error, hthrew⟩, -⟩ := hthrows k rfl
  obtain ⟨tag, keyPair, rest, hk, -, rfl⟩ := step_wrote hstep
  obtain ⟨hlt, -⟩ := List.getElem?_eq_some_iff.mp hk
  simp [afterWrite, setCall, insert, hlt] at hthrew

/-- In a state that keeps this, every key pair inserted is durable. -/
theorem Kept.durable (h : s.Kept) (hjson : json.Inverse) : s.Durable :=
  fun tag keyPair hpair => readsBack_of_stored hjson (h.stored tag keyPair hpair)

/-- **Durability.** In every state of a run every key pair can be read back
from the file of its tag, and every create call whose open or write fails
throws and changes neither map, exactly when no write fails. -/
theorem durable_iff (hjson : json.Inverse) {files : String → Option (List UInt8)}
    {labels : List Label} (hrun : run step (init json files) labels = some t) :
    ((∀ k u, run step (init json files) (labels.take k) = some u → u.Durable) ∧
        ∀ k label u u', labels[k]? = some label →
          run step (init json files) (labels.take k) = some u → u.step label = some u' →
            FailureThrows u label u') ↔
      ∀ k, Label.wrote k true ∉ labels := by
  constructor
  · rintro ⟨-, hthrows⟩ k hmem
    obtain ⟨i, hi⟩ := List.mem_iff_getElem?.mp hmem
    obtain ⟨u, u', hu, hstep⟩ := exists_step_of_getElem? hrun hi
    exact not_failureThrows_wrote hstep (hthrows i _ u u' hi hu hstep)
  · intro hall
    have hok : ∀ label ∈ labels, ∀ k, label ≠ .wrote k true := by
      rintro _ hmem k rfl
      exact hall k hmem
    refine ⟨fun k u hu => ?_, fun k label u u' hk _ hstep => ?_⟩
    · have halong : Along step (fun _ label => ∀ k, label ≠ .wrote k true) (init json files)
          (labels.take k) :=
        along_of_forall_mem fun label hmem => hok label (List.mem_of_mem_take hmem)
      have hkept : u.Kept := invariant_along (fun _ _ _ h hlabel hs => h.step hjson hlabel hs)
        (kept_init files) halong hu
      exact hkept.durable hjson
    · exact failureThrows_of_not_wrote (hok label (List.mem_of_getElem? hk)) hstep

/-- A key pair that is created and one that is loaded. -/
theorem durable_iff_createdAndLoaded :
    ∃ t, run step (init DecimalJson.json (oneFile "hot" (keyPairOfByte 2))) createdAndLoaded =
        some t ∧ t.Durable := by
  obtain ⟨t, ht⟩ := Option.isSome_iff_exists.mp
    (show (run step (init DecimalJson.json (oneFile "hot" (keyPairOfByte 2)))
      createdAndLoaded).isSome by decide +kernel)
  exact ⟨t, ht, ((durable_iff DecimalJson.inverse ht).mpr (by simp [createdAndLoaded])).1 10 t ht⟩

/-- A write fails when five bytes are stored. -/
def writeFails : List Label :=
  [.createTag "cold" (keyPairOfByte 7) false, .stored 0 5, .wrote 0 true]

/-- The call returns, and its key pair is in memory alone. -/
theorem durable_fails :
    ∃ s t, run step (init DecimalJson.json fun _ => none) (writeFails.take 2) = some s ∧
      s.step (.wrote 0 true) = some t ∧ s.keyPairs "cold" = none ∧
      t.keyPairs "cold" = some (keyPairOfByte 7) ∧ ¬ FailureThrows s (.wrote 0 true) t ∧
      ¬ t.Durable := by
  obtain ⟨t, ht⟩ := Option.isSome_iff_exists.mp
    (show (run step (init DecimalJson.json fun _ => none) writeFails).isSome by decide +kernel)
  have hlast : writeFails[2]? = some (.wrote 0 true) := rfl
  obtain ⟨s, t', hs, hstep⟩ := exists_step_of_getElem? ht hlast
  have hbefore : (run step (init DecimalJson.json fun _ => none) (writeFails.take 2)).map
      (fun s => s.keyPairs "cold") = some none := by decide +kernel
  have hafter : ((run step (init DecimalJson.json fun _ => none) (writeFails.take 2)).bind
      (step · (.wrote 0 true))).map
        (fun s => (s.keyPairs "cold", s.files (getKeyPairPath "cold"))) =
      some (some (keyPairOfByte 7), some [91, 55, 44, 55, 44]) := by decide +kernel
  rw [hs, Option.map_some, Option.some.injEq] at hbefore
  rw [hs, Option.bind_some, hstep, Option.map_some, Option.some.injEq, Prod.mk.injEq] at hafter
  refine ⟨s, t', hs, hstep, hbefore, hafter.1, not_failureThrows_wrote hstep, fun hdurable => ?_⟩
  obtain ⟨content, hcontent, hback⟩ :=
    stored_of_readsBack DecimalJson.inverse (hdurable _ _ hafter.1)
  obtain rfl := Option.some.inj (hafter.2.symm.trans hcontent)
  exact absurd hback (by decide +kernel)

end Synthfi.Core.KeyStore
