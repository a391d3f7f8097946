/-
Synthfi.Program.SizeTheorems — what the size field of an account records.

`recordedSize` is what the three instructions leave in the field of an
account, in terms of its count: the length of the populated region for tables
and deposit accounts, and for a product the size of the whole structure, then
a value that wraps around. `Effect.sized` keeps it. A product's field never
describes its populated region, so the field is right throughout a run
exactly when the run adds no product.
-/
import Synthfi.Program.SynthesizerTheorems

namespace Synthfi.Program

open Bytes

/-! ## The populated region -/

/-- The bytes of an account up to the end of the keys it lists. -/
def populatedLength (data : List UInt8) : ℕ :=
  if acctype data = acctypeTable then productTable.keysAt + 32 * productTable.count data
  else if acctype data = acctypeProduct then product.keysAt + 32 * product.count data
  else sizeofDepositAccount

/-- What the instructions leave in the size field. -/
def recordedSize (data : List UInt8) : ℕ :=
  if acctype data = acctypeProduct then
    if product.count data = 0 then sizeofProduct
    else product.populated (product.count data) % 256 ^ 4
  else populatedLength data

/-- The size field of every initialised account is the length of its
populated region. -/
def SizesDescribe (l : Ledger) : Prop :=
  ∀ k, magic (l k).data = synthfiMagic → size (l k).data = populatedLength (l k).data

/-- A registered ledger whose size fields are as recorded. -/
structure Sized (l : Ledger) : Prop extends Registered l where
  size_eq : ∀ k, magic (l k).data = synthfiMagic → size (l k).data = recordedSize (l k).data

theorem recordedSize_of_ne {data : List UInt8} (h : acctype data ≠ acctypeProduct) :
    recordedSize data = populatedLength data := if_neg h

/-- The list behind a product's header is 64 keys long, a deposit account
only 96 bytes. -/
theorem recordedSize_ne {data : List UInt8} (h : acctype data = acctypeProduct)
    (hcount : product.count data ≤ product.maxCount) : recordedSize data ≠ populatedLength data := by
  have htable : acctype data ≠ acctypeTable := by rw [h]; decide
  rw [recordedSize, if_pos h, populatedLength, if_neg htable, if_pos h]
  generalize product.count data = count at hcount
  have hcount' : count ≤ 64 := hcount
  show (if count = 0 then 2208 else (2 ^ 64 + 96 - 32 * 64 + count * 32) % 2 ^ 64 % 256 ^ 4) ≠
    160 + 32 * count
  split <;> omega

theorem count_of_cleared {layout : LinkLayout} {v t s : ℕ} {data data' : List UInt8}
    (h : Cleared layout.structSize v t s data data') : layout.count data' = 0 := by
  have hheader := layout.header_le
  have hcount := layout.count_le
  have hkeys := layout.keys_le
  exact h.zero _ _ hheader (by omega)

/-! ## Steps -/

theorem recordedSize_of_table {v : ℕ} {data data' : List UInt8}
    (h : Cleared sizeofProductTable v acctypeTable (productTable.populated 0) data data') :
    size data' = recordedSize data' := by
  have hacctype : acctype data' = acctypeTable := h.acctype
  have hstored : Cleared productTable.structSize _ _ _ _ data' := h
  have hne : acctype data' ≠ acctypeProduct := by rw [hacctype]; decide
  rw [recordedSize_of_ne hne, populatedLength, if_pos hacctype, count_of_cleared hstored, h.size]
  rfl

/-- The new account of either layout. -/
theorem recordedSize_of_child {layout : LinkLayout}
    (hlayout : layout = productTable ∨ layout = product) {v : ℕ} {data data' : List UInt8}
    (h : Cleared layout.childSize v layout.childAcctype layout.childSize data data') :
    size data' = recordedSize data' := by
  rcases hlayout with rfl | rfl
  · have hacctype : acctype data' = acctypeProduct := h.acctype
    have hstored : Cleared product.structSize _ _ _ _ data' := h
    rw [recordedSize, if_pos hacctype, if_pos (count_of_cleared hstored), h.size]
    rfl
  · have hacctype : acctype data' = acctypeDeposit := h.acctype
    have hne : acctype data' ≠ acctypeProduct := by rw [hacctype]; decide
    have htable : acctype data' ≠ acctypeTable := by rw [hacctype]; decide
    rw [recordedSize_of_ne hne, populatedLength, if_neg htable, if_neg hne, h.size]
    rfl

/-- The account that lists one more. -/
theorem recordedSize_of_linked {layout : LinkLayout}
    (hlayout : layout = productTable ∨ layout = product) {child : SolPubkey}
    {data data' : List UInt8} (hacctype : acctype data = layout.acctype)
    (hroom : layout.count data < layout.maxCount) (h : Linked layout child data data') :
    size data' = recordedSize data' := by
  have hsame : acctype data' = layout.acctype := h.acctype.trans hacctype
  rcases hlayout with rfl | rfl
  · have hne : acctype data' ≠ acctypeProduct := by rw [hsame]; decide
    have htable : acctype data' = acctypeTable := hsame
    rw [recordedSize_of_ne hne, populatedLength, if_pos htable, h.size, h.count]
    generalize productTable.count data = count at hroom
    have hroom' : count < 8 := hroom
    show (280 - 32 * 8 + (count + 1) * 32) % 256 ^ 4 = 24 + 32 * (count + 1)
    omega
  · have hcount : product.count data' ≠ 0 := by
      rw [h.count]
      exact Nat.succ_ne_zero _
    have hproduct : acctype data' = acctypeProduct := hsame
    rw [recordedSize, if_pos hproduct, if_neg hcount, h.size, h.count]

theorem size_setData {l : Ledger} {k : SolPubkey} {data : List UInt8}
    (hl : ∀ q, magic (l q).data = synthfiMagic → size (l q).data = recordedSize (l q).data)
    (hdata : size data = recordedSize data) (q : SolPubkey)
    (hq : magic (l.setData k data q).data = synthfiMagic) :
    size (l.setData k data q).data = recordedSize (l.setData k data q).data := by
  by_cases hqk : q = k
  · subst hqk
    rwa [Ledger.setData_self]
  · rw [Ledger.setData_of_ne _ hqk] at hq ⊢
    exact hl q hq

theorem Effect.sized {prm : SolParameters} {l l' : Ledger} {r : Result}
    (h : Effect prm l r l') (hl : Sized l) : Sized l' := by
  refine { toRegistered := h.registered hl.toRegistered, size_eq := ?_ }
  cases h with
  | rejected => exact hl.size_eq
  | idle => exact hl.size_eq
  | table command accounts signed fresh stored =>
    exact size_setData hl.size_eq (recordedSize_of_table stored)
  | linked command accounts signed childSigned initialised acctype fresh room cleared stored =>
    have hlayout := layout_cases command
    exact size_setData (size_setData hl.size_eq (recordedSize_of_child hlayout cleared))
      (recordedSize_of_linked hlayout acctype room stored)

theorem sized_of_zero {l : Ledger} (h : ∀ k, ∀ b ∈ (l k).data, b = 0) : Sized l := by
  refine { toRegistered := registered_of_zero h, size_eq := ?_ }
  intro k hk
  have hmagic : magic (l k).data = 0 := readNat_eq_zero (h k) 4 0
  rw [hmagic] at hk
  exact absurd hk (by decide)

/-! ## Products -/

/-- No initialised account is a product. -/
def NoProduct (l : Ledger) : Prop := ∀ k, ¬ Holds l acctypeProduct k

/-- The size fields of a reachable ledger are right exactly when it has no
product. -/
theorem Sized.sizesDescribe_iff {l : Ledger} (h : Sized l) : SizesDescribe l ↔ NoProduct l := by
  constructor
  · intro hsizes k hk
    have hcount := (registryInvariant_of_valid h.valid h.version).count_le product (by simp) k hk
    exact recordedSize_ne hk.2 hcount ((h.size_eq k hk.1).symm.trans (hsizes k hk.1))
  · intro hnone k hk
    have hne : acctype (l k).data ≠ acctypeProduct := fun hacctype => hnone k ⟨hk, hacctype⟩
    rw [h.size_eq k hk, recordedSize_of_ne hne]

/-- The invocation is an `add_product` whose accounts pass the checks. -/
def AddsProduct (l : Ledger) : Option SolParameters → Prop
  | none => False
  | some prm => 8 ≤ prm.data.length ∧ headerVersion prm = synthfiVersion1 ∧
      headerCommand prm = 1 ∧
      match prm.accounts with
      | funding :: table :: new :: _ => Accepts productTable prm l funding table new
      | _ => False

instance (l : Ledger) (input : Option SolParameters) : Decidable (AddsProduct l input) := by
  unfold AddsProduct
  split
  · infer_instance
  · split <;> infer_instance

theorem dispatch_of_command {prm : SolParameters} (l : Ledger) (hlength : 8 ≤ prm.data.length)
    (hversion : headerVersion prm = synthfiVersion1) (hcommand : headerCommand prm = 1) :
    dispatch prm l = initLinked productTable prm l := by
  rw [dispatch, if_neg (not_lt.mpr hlength), if_pos hversion, dispatch1, hcommand]
  rfl

/-- An invocation that adds one makes a product. -/
theorem not_noProduct_of_addsProduct {l l' : Ledger} {input : Option SolParameters}
    (h : AddsProduct l input) (hstep : ledgerStep l input = some l') : ¬ NoProduct l' := by
  match input, h with
  | some prm, ⟨hlength, hversion, hcommand, haccepts⟩ =>
    match haccounts : prm.accounts with
    | [] => simp [haccounts] at haccepts
    | [_] => simp [haccounts] at haccepts
    | [_, _] => simp [haccounts] at haccepts
    | funding :: table :: new :: rest =>
      rw [haccounts] at haccepts
      obtain ⟨newData, tableData, hlinked, hcleared, -⟩ := initLinked_of_accepts haccounts haccepts
      rw [ledgerStep, entrypoint, dispatch_of_command l hlength hversion hcommand, hlinked,
        Option.map_some, Option.some.injEq] at hstep
      intro hnone
      refine hnone new ?_
      replace hstep : (l.setData new newData).setData table tableData = l' := hstep
      have hdata : (l' new).data = newData := by
        rw [← hstep, Ledger.setData_of_ne _ (Accepts.ne haccepts).symm, Ledger.setData_self]
      rw [Holds, hdata]
      exact ⟨hcleared.magic, hcleared.acctype⟩

/-- An `add_product` that succeeds has passed the checks. -/
theorem addsProduct_of_success {prm : SolParameters} {l l' : Ledger}
    (hcommand : headerCommand prm = 1) (h : dispatch prm l = some (.success, l')) :
    AddsProduct l (some prm) := by
  have hreject : reject l ≠ some (.success, l') := fun heq => by
    simp [reject] at heq
  by_cases hlength : 8 ≤ prm.data.length
  · by_cases hversion : headerVersion prm = synthfiVersion1
    · rw [dispatch_of_command l hlength hversion hcommand] at h
      refine ⟨hlength, hversion, hcommand, ?_⟩
      rcases haccounts : prm.accounts with _ | ⟨funding, _ | ⟨table, _ | ⟨new, rest⟩⟩⟩
      · exact absurd (by simpa only [initLinked, haccounts] using h) hreject
      · exact absurd (by simpa only [initLinked, haccounts] using h) hreject
      · exact absurd (by simpa only [initLinked, haccounts] using h) hreject
      · by_contra haccepts
        exact hreject ((initLinked_of_not_accepts haccounts haccepts).symm.trans h)
    · rw [dispatch, if_neg (not_lt.mpr hlength), if_neg hversion] at h
      exact absurd h hreject
  · rw [dispatch, if_pos (not_le.mp hlength)] at h
    exact absurd h hreject

theorem holds_setData_of_ne {l : Ledger} {k q : SolPubkey} {t : ℕ} {data : List UInt8}
    (h : Holds (l.setData k data) t q) (hdata : acctype data ≠ t) : Holds l t q := by
  rw [Holds] at h
  by_cases hq : q = k
  · subst hq
    rw [Ledger.setData_self] at h
    exact absurd h.2 hdata
  · rwa [Ledger.setData_of_ne _ hq] at h

/-- A command that adds other than products adds to a product. -/
theorem eq_product_of_addCommand {command : ℕ} {layout : LinkLayout}
    (h : addCommand command = some layout) (hcommand : command ≠ 1) : product = layout := by
  rw [addCommand.eq_def] at h
  split at h
  · exact absurd rfl hcommand
  · exact Option.some.inj h
  · cases h

/-- The others do not. -/
theorem noProduct_of_not_addsProduct {l l' : Ledger} {input : Option SolParameters}
    (hnone : NoProduct l) (h : ¬ AddsProduct l input) (hstep : ledgerStep l input = some l') :
    NoProduct l' := by
  cases input with
  | none =>
    obtain rfl := Option.some.inj hstep
    exact hnone
  | some prm =>
    obtain ⟨r, l'', hdispatch, heffect⟩ := dispatch_effect prm l
    obtain rfl : l'' = l' := by
      rw [ledgerStep, entrypoint, hdispatch] at hstep
      exact Option.some.inj hstep
    cases heffect with
    | rejected => exact hnone
    | idle => exact hnone
    | table command accounts signed fresh stored =>
      intro q hq
      exact hnone q (holds_setData_of_ne hq (by rw [stored.acctype]; decide))
    | linked command accounts signed childSigned initialised acctype fresh room cleared stored =>
      -- command 1 would be one that adds, and command 2 needs a product
      have hcommand : headerCommand prm ≠ 1 := fun hone =>
        h (addsProduct_of_success hone hdispatch)
      obtain rfl := eq_product_of_addCommand command hcommand
      exact absurd ⟨initialised, acctype⟩ (hnone _)

/-! ## Runs -/

theorem ledgerStep_sized {l l' : Ledger} {input : Option SolParameters} (hl : Sized l)
    (hstep : ledgerStep l input = some l') : Sized l' := by
  match input with
  | none =>
    obtain rfl := Option.some.inj hstep
    exact hl
  | some prm =>
    obtain ⟨r, l'', hdispatch, heffect⟩ := dispatch_effect prm l
    rw [ledgerStep, entrypoint, hdispatch] at hstep
    exact Option.some.inj hstep ▸ heffect.sized hl

theorem run_sized {l t : Ledger} (hl : Sized l) {inputs : List (Option SolParameters)}
    (hrun : Run.run ledgerStep l inputs = some t) : Sized t := by
  induction inputs generalizing l with
  | nil =>
    obtain rfl := Option.some.inj hrun
    exact hl
  | cons input inputs ih =>
    obtain ⟨l', hstep, hrest⟩ := Run.run_cons_eq_some.mp hrun
    exact ih (ledgerStep_sized hl hstep) hrest

/-- **The size field.** From accounts whose data is all zero, tables and
deposit accounts have the length of their populated region as their size in
every ledger reached, and products never do. So every size is right
throughout exactly when no invocation adds a product. -/
theorem sizes_iff {l : Ledger} (hzero : ∀ k, ∀ b ∈ (l k).data, b = 0)
    (inputs : List (Option SolParameters)) :
    (∀ n u, Run.run ledgerStep l (inputs.take n) = some u →
      ∀ k, magic (u k).data = synthfiMagic →
        (size (u k).data = populatedLength (u k).data ↔ acctype (u k).data ≠ acctypeProduct)) ∧
    ((∀ n u, Run.run ledgerStep l (inputs.take n) = some u → SizesDescribe u) ↔
      Run.Along ledgerStep (fun l input => ¬ AddsProduct l input) l inputs) := by
  have hsized := sized_of_zero hzero
  constructor
  · intro n u hu k hk
    have hu' := run_sized hsized hu
    rw [hu'.size_eq k hk]
    constructor
    · intro hsame hproduct
      have hcount := (registryInvariant_of_valid hu'.valid hu'.version).count_le product (by simp) k
        ⟨hk, hproduct⟩
      exact recordedSize_ne hproduct hcount hsame
    · exact recordedSize_of_ne
  · obtain ⟨t, ht, -⟩ := run_registered hsized.toRegistered inputs
    have hnone : NoProduct l := fun k hk => by
      have hmagic : magic (l k).data = 0 := readNat_eq_zero (hzero k) 4 0
      rw [Holds, hmagic] at hk
      exact absurd hk.1 (by decide)
    have hkeeps : ∀ u input u', Sized u → SizesDescribe u → ¬ AddsProduct u input →
        ledgerStep u input = some u' → Sized u' := fun u input u' hu _ _ hstep =>
      ledgerStep_sized hu hstep
    refine Run.along_iff_prefixes hkeeps ?_ hsized (hsized.sizesDescribe_iff.mpr hnone) ht
    intro u input u' hu hdescribe hstep
    rw [(ledgerStep_sized hu hstep).sizesDescribe_iff]
    constructor
    · intro hnone' hadds
      exact not_noProduct_of_addsProduct hadds hstep hnone'
    · intro hadds
      exact noProduct_of_not_addsProduct (hu.sizesDescribe_iff.mp hdescribe) hadds hstep

theorem zeroLedger_zero : ∀ k, ∀ b ∈ (zeroLedger k).data, b = 0 :=
  fun _ _ hb => List.eq_of_mem_replicate hb

/-- Two tables, and the first once more. -/
def tableInputs : List (Option SolParameters) :=
  [signedInput 0 [runKey 1, runKey 2], signedInput 0 [runKey 1, runKey 5],
    signedInput 0 [runKey 1, runKey 2]]

theorem sizes_iff_tables :
    (∃ t, Run.run ledgerStep zeroLedger tableInputs = some t ∧
      size (t (runKey 2)).data = 24 ∧ size (t (runKey 5)).data = 24) ∧
    ∀ n u, Run.run ledgerStep zeroLedger (tableInputs.take n) = some u → SizesDescribe u := by
  have hsizes : (Run.run ledgerStep zeroLedger tableInputs).map (fun t =>
      (size (t (runKey 2)).data, size (t (runKey 5)).data)) = some (24, 24) := by decide +kernel
  obtain ⟨t, ht, hsizes⟩ := Option.map_eq_some_iff.mp hsizes
  rw [Prod.mk.injEq] at hsizes
  exact ⟨⟨t, ht, hsizes⟩, (sizes_iff zeroLedger_zero _).2.mpr (by decide +kernel)⟩

/-- A table, a product in it and a deposit account in that: the product is
created with the size 2208 for the 160 bytes before its list, and then has
4294965376 for 192. -/
theorem sizes_fails :
    (∀ k, ∀ b ∈ (zeroLedger k).data, b = 0) ∧
    (∃ u, Run.run ledgerStep zeroLedger (registryInputs.take 2) = some u ∧
      size (u (runKey 3)).data = 2208 ∧ populatedLength (u (runKey 3)).data = 160) ∧
    ∃ t, Run.run ledgerStep zeroLedger (registryInputs.take 3) = some t ∧
      size (t (runKey 3)).data = 4294965376 ∧ populatedLength (t (runKey 3)).data = 192 ∧
      ¬ SizesDescribe t := by
  have hcreated : (Run.run ledgerStep zeroLedger (registryInputs.take 2)).map (fun t =>
      (size (t (runKey 3)).data, populatedLength (t (runKey 3)).data)) = some (2208, 160) := by
    decide +kernel
  have hlinked : (Run.run ledgerStep zeroLedger (registryInputs.take 3)).map (fun t =>
      (magic (t (runKey 3)).data, size (t (runKey 3)).data, populatedLength (t (runKey 3)).data)) =
        some (synthfiMagic, 4294965376, 192) := by decide +kernel
  obtain ⟨u, hu, hcreated⟩ := Option.map_eq_some_iff.mp hcreated
  obtain ⟨t, ht, hlinked⟩ := Option.map_eq_some_iff.mp hlinked
  simp only [Prod.mk.injEq] at hcreated hlinked
  obtain ⟨hmagic, hsize, hpopulated⟩ := hlinked
  refine ⟨zeroLedger_zero, ⟨u, hu, hcreated⟩, t, ht, hsize, hpopulated, ?_⟩
  intro hdescribe
  have hsame := hdescribe (runKey 3) hmagic
  rw [hsize, hpopulated] at hsame
  exact absurd hsame (by decide)

end Synthfi.Program
