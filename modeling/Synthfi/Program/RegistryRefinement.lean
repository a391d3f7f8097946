/-
Synthfi.Program.RegistryRefinement — the program's accounts refine a forest.

What an invocation asks for is decided by its parameters and by who owns how
large an account, which no invocation changes (`request`). What comes of it is
decided by the forest of tables, products and deposit accounts alone
(`Request.answer`), without bytes, headers or counts. `entrypoint_refines`
shows that one invocation returns the answer and leaves the forest the answer
leaves; `registry_refines` follows any sequence of invocations.
-/
import Synthfi.Program.SynthesizerTheorems
import Synthfi.Solana.ProgramInstruction

namespace Synthfi.Program

open LinkForest Synthfi.Solana

/-! ## What an invocation asks for -/

/-- The owner and the size of every account. -/
abbrev Holdings := SolPubkey → SolPubkey × ℕ

def holdings (l : Ledger) : Holdings := fun k => ((l k).owner, (l k).data.length)

inductive Request where
  | refused
  /-- The commands that are not implemented: success, and nothing happens. -/
  | idle
  | grow (op : Op SolPubkey)

/-- Signed, writable, owned by the program and large enough. -/
def Signable (h : Holdings) (prm : SolParameters) (k : SolPubkey) (dlen : ℕ) : Prop :=
  prm.isSigner k ∧ prm.isWritable k ∧ (h k).1 = prm.programId ∧ dlen ≤ (h k).2

instance (h : Holdings) (prm : SolParameters) (k : SolPubkey) (dlen : ℕ) :
    Decidable (Signable h prm k dlen) :=
  inferInstanceAs (Decidable (_ ∧ _ ∧ _ ∧ _))

def plantRequest (h : Holdings) (prm : SolParameters) : Request :=
  match prm.accounts with
  | funding :: table :: _ =>
    if validFundingAccount prm funding ∧ Signable h prm table sizeofProductTable then
      .grow (.plant table)
    else .refused
  | _ => .refused

def linkRequest (layout : LinkLayout) (h : Holdings) (prm : SolParameters) : Request :=
  match prm.accounts with
  | funding :: parent :: child :: _ =>
    if validFundingAccount prm funding ∧ Signable h prm parent layout.structSize ∧
        Signable h prm child layout.childSize then
      .grow (.link layout.acctype parent child)
    else .refused
  | _ => .refused

def request (h : Holdings) : Option SolParameters → Request
  | none => .refused
  | some prm =>
    if prm.data.length < 8 ∨ headerVersion prm ≠ synthfiVersion1 then .refused
    else
      match headerCommand prm with
      | 0 => plantRequest h prm
      | 1 => linkRequest productTable h prm
      | 2 => linkRequest product h prm
      | 3 => .idle
      | 4 => .idle
      | _ => .refused

/-- The result of a request and the forest after it. -/
def Request.answer (f : Forest SolPubkey) : Request → Result × Forest SolPubkey
  | .refused => (.errorInvalidArgument, f)
  | .idle => (.success, f)
  | .grow op =>
    match op.apply registryShape f with
    | some f' => (.success, f')
    | none => (.errorInvalidArgument, f)

/-- The program reads the version and the command where the client's
instructions put them. -/
theorem header_of_items {command : ℕ} (hcommand : command ∈ [synthfiInit, synthfiAddProduct])
    {prm : SolParameters}
    (hdata : prm.data = [.uint32 synthfiVersion, .uint32 command].flatMap IntegralItem.bytes) :
    ¬ (prm.data.length < 8 ∨ headerVersion prm ≠ synthfiVersion1) ∧
      headerCommand prm = command := by
  rw [headerVersion, headerCommand, hdata]
  rcases (by simpa using hcommand : command = synthfiInit ∨ command = synthfiAddProduct) with
    rfl | rfl <;> decide

/-- The data of `InitSynthfiInstruction` asks for a table. -/
theorem request_initSynthfiInstruction (h : Holdings) {prm : SolParameters} {programId : UInt8}
    {accountIndices : List UInt8}
    (hdata : prm.data = (initSynthfiInstruction programId accountIndices).items.flatMap
      IntegralItem.bytes) : request h (some prm) = plantRequest h prm := by
  obtain ⟨hchecks, hcommand⟩ := header_of_items (by decide) hdata
  simp only [request, if_neg hchecks, hcommand, synthfiInit]

/-- The data of `InitSynthfiProductInstruction` asks for a product of a table. -/
theorem request_initSynthfiProductInstruction (h : Holdings) {prm : SolParameters}
    {programId : UInt8} {accountIndices : List UInt8}
    (hdata : prm.data = (initSynthfiProductInstruction programId accountIndices).items.flatMap
      IntegralItem.bytes) : request h (some prm) = linkRequest productTable h prm := by
  obtain ⟨hchecks, hcommand⟩ := header_of_items (by decide) hdata
  simp only [request, if_neg hchecks, hcommand, synthfiAddProduct]

/-! ## What stays true of the accounts -/

/-- No account carries another mark than that of the program, and the version
belongs to the mark. -/
def Marked (l : Ledger) : Prop :=
  ∀ k, (magic (l k).data = 0 ∧ version (l k).data = 0) ∨
    (magic (l k).data = synthfiMagic ∧ version (l k).data = synthfiVersion1)

section Marked

variable {l l' : Ledger} {k : SolPubkey}

theorem Marked.version_of_fresh (h : Marked l) (hmagic : magic (l k).data = 0) :
    version (l k).data = 0 := by
  rcases h k with ⟨-, hversion⟩ | ⟨hmarked, -⟩
  · exact hversion
  · rw [hmagic] at hmarked
    exact absurd hmarked (by decide)

theorem Marked.version_of_magic (h : Marked l) (hmagic : magic (l k).data = synthfiMagic) :
    version (l k).data = synthfiVersion1 := by
  rcases h k with ⟨hfresh, -⟩ | ⟨-, hversion⟩
  · rw [hmagic] at hfresh
    exact absurd hfresh (by decide)
  · exact hversion

/-- The forest has no node where an account has no mark. -/
theorem Marked.forestOf_eq_none_iff (h : Marked l) :
    forestOf l k = none ↔ magic (l k).data = 0 := by
  refine ⟨fun hnone => ?_, nodeOf_of_magic_eq_zero⟩
  rcases h k with ⟨hfresh, -⟩ | ⟨hmarked, -⟩
  · exact hfresh
  · rw [forestOf, nodeOf, if_pos hmarked] at hnone
    exact absurd hnone (by simp)

theorem Marked.setData (h : Marked l) {data : List UInt8} (hmagic : magic data = synthfiMagic)
    (hversion : version data = synthfiVersion1) : Marked (l.setData k data) := by
  intro q
  by_cases hq : q = k
  · subst hq
    rw [Ledger.setData_self]
    exact .inr ⟨hmagic, hversion⟩
  · rw [Ledger.setData_of_ne _ hq]
    exact h q

theorem holdings_setData {data : List UInt8} (hlength : data.length = (l k).data.length) :
    holdings (l.setData k data) = holdings l := by
  funext q
  by_cases hq : q = k
  · subst hq
    simp [holdings, Ledger.setData, hlength]
  · simp [holdings, hq]

variable {prm : SolParameters} {r : Result}

/-- No effect marks an account otherwise. -/
theorem Effect.marked (h : Effect prm l r l') (hl : Marked l) : Marked l' := by
  cases h with
  | rejected => exact hl
  | idle => exact hl
  | table command accounts signed fresh stored => exact hl.setData stored.magic stored.version
  | linked command accounts signed childSigned initialised acctype fresh room cleared stored =>
    refine (hl.setData cleared.magic cleared.version).setData
      (stored.magic.trans initialised) ?_
    exact stored.version.trans (hl.version_of_magic initialised)

/-- No effect changes an owner or a size. -/
theorem Effect.holdings (h : Effect prm l r l') : holdings l' = holdings l := by
  cases h with
  | rejected => rfl
  | idle => rfl
  | table command accounts signed fresh stored => exact holdings_setData stored.length
  | @linked layout funding parent child rest childData parentData command accounts signed
      childSigned initialised acctype fresh room cleared stored =>
    have hne : parent ≠ child := by
      rintro rfl
      rw [fresh] at initialised
      exact absurd initialised (by decide)
    rw [holdings_setData, holdings_setData cleared.length]
    rw [Ledger.setData_of_ne _ hne]
    exact stored.length

end Marked

/-! ## One invocation -/

section Step

variable {l : Ledger} {prm : SolParameters}

theorem signable_iff {k : SolPubkey} {dlen : ℕ} :
    Signable (holdings l) prm k dlen ↔ validSignableAccount prm l k dlen :=
  validSignableAccount_iff.symm

/-- A table is made where the forest has room for it, and refused elsewhere. -/
theorem initSynthfi_answer (hl : Marked l) :
    ∃ r l', initSynthfi prm l = some (r, l') ∧
      (plantRequest (holdings l) prm).answer (forestOf l) = (r, forestOf l') := by
  match haccounts : prm.accounts with
  | [] => exact ⟨_, l, by rw [initSynthfi, haccounts]; rfl, by rw [plantRequest, haccounts]; rfl⟩
  | [_] => exact ⟨_, l, by rw [initSynthfi, haccounts]; rfl, by rw [plantRequest, haccounts]; rfl⟩
  | funding :: table :: rest =>
    simp only [plantRequest, haccounts, signable_iff]
    by_cases hvalid : validFundingAccount prm funding ∧
        validSignableAccount prm l table sizeofProductTable
    · rw [if_pos hvalid, Request.answer, Op.apply]
      by_cases hfresh : magic (l table).data = 0
      · obtain ⟨data, hinit, hcleared⟩ := initSynthfi_of_fresh haccounts hvalid.1 hvalid.2 hfresh
          (hl.version_of_fresh hfresh)
        refine ⟨_, _, hinit, ?_⟩
        rw [if_pos (hl.forestOf_eq_none_iff.mpr hfresh), forestOf_table hcleared]
      · refine ⟨_, _, initSynthfi_of_not_fresh haccounts fun h => hfresh h.2.2.1, ?_⟩
        rw [if_neg (mt hl.forestOf_eq_none_iff.mp hfresh)]
    · rw [if_neg hvalid]
      exact ⟨_, _, initSynthfi_of_not_fresh haccounts fun h => hvalid ⟨h.1, h.2.1⟩, rfl⟩

/-- The checks on the bytes of the three accounts are those of the forest on
its nodes. -/
theorem accepts_iff_apply {layout : LinkLayout}
    (hlayout : layout = productTable ∨ layout = product) (hl : Marked l)
    (hversion : headerVersion prm = synthfiVersion1) {funding parent child : SolPubkey}
    (hfunded : validFundingAccount prm funding)
    (hparent : validSignableAccount prm l parent layout.structSize)
    (hchild : validSignableAccount prm l child layout.childSize) :
    Accepts layout prm l funding parent child ↔
      ∃ n, forestOf l parent = some n ∧ n.level = layout.acctype ∧ forestOf l child = none ∧
        n.links.length < registryShape.capacity layout.acctype := by
  have hcapacity : registryShape.capacity layout.acctype = layout.maxCount := by
    rcases hlayout with rfl | rfl <;> rfl
  rw [hcapacity]
  constructor
  · intro h
    refine ⟨_, forestOf_of_initialised hlayout h.initialised h.acctype, rfl,
      hl.forestOf_eq_none_iff.mpr h.fresh, ?_⟩
    rw [length_keys]
    exact h.room
  · rintro ⟨n, hn, hlevel, hnone, hroom⟩
    obtain ⟨hmagic, hacctype⟩ := holds_of_forestOf hn
    rw [hlevel] at hacctype
    obtain rfl : n = ⟨layout.acctype, layout.keys (l parent).data⟩ :=
      Option.some.inj (hn.symm.trans (forestOf_of_initialised hlayout hmagic hacctype))
    rw [length_keys] at hroom
    exact ⟨hfunded, hparent, hchild, hmagic, (hl.version_of_magic hmagic).trans hversion.symm,
      hacctype, hl.forestOf_eq_none_iff.mp hnone, hroom⟩

/-- An account is added where the forest links it, and refused elsewhere. -/
theorem initLinked_answer {layout : LinkLayout}
    (hlayout : layout = productTable ∨ layout = product) (hl : Marked l)
    (hversion : headerVersion prm = synthfiVersion1) :
    ∃ r l', initLinked layout prm l = some (r, l') ∧
      (linkRequest layout (holdings l) prm).answer (forestOf l) = (r, forestOf l') := by
  match haccounts : prm.accounts with
  | [] => exact ⟨_, l, by rw [initLinked, haccounts]; rfl, by rw [linkRequest, haccounts]; rfl⟩
  | [_] => exact ⟨_, l, by rw [initLinked, haccounts]; rfl, by rw [linkRequest, haccounts]; rfl⟩
  | [_, _] => exact ⟨_, l, by rw [initLinked, haccounts]; rfl, by rw [linkRequest, haccounts]; rfl⟩
  | funding :: parent :: child :: rest =>
    simp only [linkRequest, haccounts, signable_iff]
    by_cases hvalid : validFundingAccount prm funding ∧
        validSignableAccount prm l parent layout.structSize ∧
        validSignableAccount prm l child layout.childSize
    case neg =>
      rw [if_neg hvalid]
      exact ⟨_, _, initLinked_of_not_accepts haccounts fun h =>
        hvalid ⟨h.funded, h.signed, h.childSigned⟩, rfl⟩
    case pos =>
    have haccepts := accepts_iff_apply hlayout hl hversion hvalid.1 hvalid.2.1 hvalid.2.2
    rw [if_pos hvalid, Request.answer, Op.apply]
    by_cases h : Accepts layout prm l funding parent child
    · obtain ⟨childData, parentData, hlinked, hcleared, hstored⟩ :=
        initLinked_of_accepts haccounts h
      obtain ⟨n, hn, hlevel, hnone, hroom⟩ := haccepts.mp h
      have hnode := forestOf_of_initialised hlayout h.initialised h.acctype
      obtain rfl := Option.some.inj (hn.symm.trans hnode)
      refine ⟨_, _, hlinked, ?_⟩
      rw [hn]
      dsimp only
      rw [if_pos ⟨rfl, hnone, hroom⟩,
        forestOf_linked hlayout h.initialised h.acctype hcleared hstored]
    · refine ⟨_, _, initLinked_of_not_accepts haccounts h, ?_⟩
      cases hparent : forestOf l parent with
      | none => rfl
      | some n =>
        have hrefused : ¬ (n.level = layout.acctype ∧ forestOf l child = none ∧
            n.links.length < registryShape.capacity layout.acctype) := fun hchecks =>
          h (haccepts.mpr ⟨n, hparent, hchecks⟩)
        simp only [if_neg hrefused]

/-- Each command gives the answer to its request. -/
theorem dispatch_answer (hl : Marked l) (prm : SolParameters) :
    ∃ r l', dispatch prm l = some (r, l') ∧
      (request (holdings l) (some prm)).answer (forestOf l) = (r, forestOf l') := by
  by_cases hshort : prm.data.length < 8
  · exact ⟨_, l, by rw [dispatch, if_pos hshort]; rfl, by rw [request, if_pos (.inl hshort)]; rfl⟩
  by_cases hversion : headerVersion prm = synthfiVersion1
  case neg =>
    refine ⟨_, l, by rw [dispatch, if_neg hshort, if_neg hversion]; rfl, ?_⟩
    rw [request, if_pos (.inr hversion)]
    rfl
  case pos =>
  have hchecks : ¬ (prm.data.length < 8 ∨ headerVersion prm ≠ synthfiVersion1) := by
    simp [hshort, hversion]
  simp only [dispatch, if_neg hshort, if_pos hversion, dispatch1, request, if_neg hchecks]
  obtain hcommand | hcommand | hcommand | hcommand | hcommand | hcommand :
      headerCommand prm = 0 ∨ headerCommand prm = 1 ∨ headerCommand prm = 2 ∨
        headerCommand prm = 3 ∨ headerCommand prm = 4 ∨ 5 ≤ headerCommand prm := by omega
  · rw [hcommand]
    exact initSynthfi_answer hl
  · rw [hcommand]
    exact initLinked_answer (.inl rfl) hl hversion
  · rw [hcommand]
    exact initLinked_answer (.inr rfl) hl hversion
  · rw [hcommand]
    exact ⟨_, l, rfl, rfl⟩
  · rw [hcommand]
    exact ⟨_, l, rfl, rfl⟩
  · obtain ⟨n, hn⟩ := Nat.exists_eq_add_of_le' hcommand
    rw [hn]
    exact ⟨_, l, rfl, rfl⟩

/-- **One invocation refines its request.** -/
theorem entrypoint_refines (hl : Marked l) (input : Option SolParameters) :
    ∃ r l', entrypoint input l = some (r, l') ∧ Marked l' ∧ holdings l' = holdings l ∧
      (request (holdings l) input).answer (forestOf l) = (r, forestOf l') := by
  match input with
  | none => exact ⟨_, l, rfl, hl, rfl, rfl⟩
  | some prm =>
    obtain ⟨r, l', hdispatch, hanswer⟩ := dispatch_answer hl prm
    obtain ⟨r', l'', hdispatch', heffect⟩ := dispatch_effect prm l
    obtain ⟨rfl, rfl⟩ := Prod.mk.inj (Option.some.inj (hdispatch'.symm.trans hdispatch))
    exact ⟨_, _, hdispatch, heffect.marked hl, heffect.holdings, hanswer⟩

end Step

/-! ## Many invocations -/

/-- The results of the invocations, one after the other, and the ledger after
them. -/
def entrypoints : Ledger → List (Option SolParameters) → Option (List Result × Ledger)
  | l, [] => some ([], l)
  | l, input :: inputs => do
    let (r, l) ← entrypoint input l
    let (rs, l) ← entrypoints l inputs
    return (r :: rs, l)

/-- The same of the forest. -/
def answers (h : Holdings) : Forest SolPubkey → List (Option SolParameters) →
    List Result × Forest SolPubkey
  | f, [] => ([], f)
  | f, input :: inputs =>
    let (r, f) := (request h input).answer f
    let (rs, f) := answers h f inputs
    (r :: rs, f)

/-- From any accounts that are marked so, by induction on the invocations. -/
theorem entrypoints_refines {l : Ledger} (hl : Marked l) (inputs : List (Option SolParameters)) :
    ∃ rs t, entrypoints l inputs = some (rs, t) ∧ holdings t = holdings l ∧
      answers (holdings l) (forestOf l) inputs = (rs, forestOf t) := by
  induction inputs generalizing l with
  | nil => exact ⟨[], l, rfl, rfl, rfl⟩
  | cons input inputs ih =>
    obtain ⟨r, l', hentrypoint, hl', hholdings, hanswer⟩ := entrypoint_refines hl input
    obtain ⟨rs, t, hentrypoints, hsame, hanswers⟩ := ih hl'
    rw [hholdings] at hsame hanswers
    refine ⟨r :: rs, t, ?_, hsame, ?_⟩
    · simp [entrypoints, hentrypoint, hentrypoints]
    · simp only [answers, hanswer, hanswers]

theorem marked_of_zero {l : Ledger} (h : ∀ k, ∀ b ∈ (l k).data, b = 0) : Marked l := fun k =>
  .inl ⟨readNat_eq_zero (h k) 4 0, readNat_eq_zero (h k) 4 4⟩

/-- **The program refines a forest.** From accounts whose data is all zero,
every sequence of invocations returns the results that the forest gives to
their requests, one after the other from the empty forest, and leaves the
forest that the requests leave; owners and sizes stay. -/
theorem registry_refines {l : Ledger} (hzero : ∀ k, ∀ b ∈ (l k).data, b = 0)
    (inputs : List (Option SolParameters)) :
    ∃ rs t, entrypoints l inputs = some (rs, t) ∧ holdings t = holdings l ∧
      answers (holdings l) (fun _ => none) inputs = (rs, forestOf t) := by
  have hforest : forestOf l = fun _ => none := by
    funext k
    exact nodeOf_of_magic_eq_zero (readNat_eq_zero (hzero k) 4 0)
  rw [← hforest]
  exact entrypoints_refines (marked_of_zero hzero) inputs

/-- A table, a product and a deposit account; the product offered once more
is refused. -/
theorem registry_refines_registryInputs :
    ∃ t, entrypoints zeroLedger registryInputs =
        some ([.success, .success, .success, .errorInvalidArgument], t) ∧
      forestOf t (runKey 2) = some ⟨acctypeTable, [runKey 3]⟩ ∧
      forestOf t (runKey 3) = some ⟨acctypeProduct, [runKey 4]⟩ := by
  have hzero : ∀ k, ∀ b ∈ (zeroLedger k).data, b = 0 := fun _ b hb => List.eq_of_mem_replicate hb
  obtain ⟨rs, t, hrun, -, hanswers⟩ := registry_refines hzero registryInputs
  have hresults : (answers (holdings zeroLedger) (fun _ => none) registryInputs).1 =
      [.success, .success, .success, .errorInvalidArgument] := by decide +kernel
  have htable : (answers (holdings zeroLedger) (fun _ => none) registryInputs).2 (runKey 2) =
      some ⟨acctypeTable, [runKey 3]⟩ := by decide +kernel
  have hproduct : (answers (holdings zeroLedger) (fun _ => none) registryInputs).2 (runKey 3) =
      some ⟨acctypeProduct, [runKey 4]⟩ := by decide +kernel
  rw [hanswers] at hresults htable hproduct
  exact ⟨t, by rw [hrun, ← hresults], htable, hproduct⟩

end Synthfi.Program
