/-
Synthfi.Program.SynthesizerTheorems — what an invocation of the on-chain
program changes, and the registry its invocations build.

`initAccount_spec` and `addLink_spec` say what the stores of one structure do
to the data of one account. `entrypoint_effect` says once what an invocation
does: it changes nothing, or it makes a table, or it makes an account and
lists it in another one. The two main results are read off it.

* `entrypoint_authorised` — an invocation that fails changes nothing, and one
  that succeeds changes only accounts that were passed as signers, as
  writable, and are the program's own and large enough.
* `registry_reachable` — from empty accounts, tables and products list
  distinct initialised accounts, and every account is listed in one place.
  The ledger is read as a forest of tables, products and deposit accounts,
  and an invocation refines one of the operations of the forest.
-/
import Synthfi.Lib.Run
import Synthfi.Lib.LinkForest
import Synthfi.Program.Synthesizer

namespace Synthfi.Program

open Bytes LinkForest

/-! ## The stores of one account -/

/-- What `initAccount` leaves of `data`. -/
structure Cleared (structSize v t s : ℕ) (data data' : List UInt8) : Prop where
  length : data'.length = data.length
  behind : data'.drop structSize = data.drop structSize
  magic : magic data' = synthfiMagic
  version : version data' = v % 256 ^ 4
  acctype : acctype data' = t % 256 ^ 4
  size : size data' = s % 256 ^ 4
  zero : ∀ w start, 16 ≤ start → start + w ≤ structSize → readNat w data' start = 0

theorem initAccount_spec (v t s : ℕ) {structSize : ℕ} {data : List UInt8} (h16 : 16 ≤ structSize)
    (hlen : structSize ≤ data.length) :
    ∃ data', initAccount structSize v t s data = some data' ∧
      Cleared structSize v t s data data' := by
  have hzeros : (List.replicate structSize (0 : UInt8)).length = structSize :=
    List.length_replicate
  have hword : ∀ n, (leBytes 4 n).length = 4 := length_leBytes 4
  obtain ⟨d₀, h₀⟩ := exists_writeAt
    (show 0 + (List.replicate structSize (0 : UInt8)).length ≤ data.length by omega)
  have l₀ := length_of_writeAt h₀
  obtain ⟨d₁, h₁⟩ := exists_writeAt
    (show 0 + (leBytes 4 synthfiMagic).length ≤ d₀.length by rw [hword]; omega)
  have l₁ := length_of_writeAt h₁
  obtain ⟨d₂, h₂⟩ := exists_writeAt
    (show 4 + (leBytes 4 v).length ≤ d₁.length by rw [hword]; omega)
  have l₂ := length_of_writeAt h₂
  obtain ⟨d₃, h₃⟩ := exists_writeAt
    (show 8 + (leBytes 4 t).length ≤ d₂.length by rw [hword]; omega)
  have l₃ := length_of_writeAt h₃
  obtain ⟨d₄, h₄⟩ := exists_writeAt
    (show 12 + (leBytes 4 s).length ≤ d₃.length by rw [hword]; omega)
  have l₄ := length_of_writeAt h₄
  refine ⟨d₄, by simp only [initAccount, h₀, h₁, h₂, h₃, h₄, Option.bind_eq_bind,
    Option.bind_some], ?_⟩
  refine
    { length := by omega, behind := ?behind, magic := ?magic, version := ?version,
      acctype := ?acctype, size := readNat_of_writeAt h₄, zero := ?zero }
  case behind =>
    rw [drop_of_writeAt h₄ (by rw [hword]; omega), drop_of_writeAt h₃ (by rw [hword]; omega),
      drop_of_writeAt h₂ (by rw [hword]; omega), drop_of_writeAt h₁ (by rw [hword]; omega),
      drop_of_writeAt h₀ (by omega)]
  case magic =>
    show readNat 4 d₄ 0 = synthfiMagic
    rw [readNat_of_writeAt_disjoint h₄ (by omega), readNat_of_writeAt_disjoint h₃ (by omega),
      readNat_of_writeAt_disjoint h₂ (by omega), readNat_of_writeAt h₁]
    rfl
  case version =>
    show readNat 4 d₄ 4 = v % 256 ^ 4
    rw [readNat_of_writeAt_disjoint h₄ (by omega), readNat_of_writeAt_disjoint h₃ (by omega),
      readNat_of_writeAt h₂]
  case acctype =>
    show readNat 4 d₄ 8 = t % 256 ^ 4
    rw [readNat_of_writeAt_disjoint h₄ (by omega), readNat_of_writeAt h₃]
  case zero =>
    intro w start hstart hend
    rw [readNat_of_writeAt_disjoint h₄ (by rw [hword]; omega),
      readNat_of_writeAt_disjoint h₃ (by rw [hword]; omega),
      readNat_of_writeAt_disjoint h₂ (by rw [hword]; omega),
      readNat_of_writeAt_disjoint h₁ (by rw [hword]; omega), readNat,
      readAt_of_writeAt_within h₀ (by omega) (by omega)]
    exact readNat_replicate w structSize (start - 0)

/-- What `addLink` leaves of `data`. -/
structure Linked (layout : LinkLayout) (child : SolPubkey) (data data' : List UInt8) : Prop where
  length : data'.length = data.length
  behind : data'.drop layout.structSize = data.drop layout.structSize
  magic : magic data' = magic data
  version : version data' = version data
  acctype : acctype data' = acctype data
  size : size data' = layout.populated (layout.count data + 1) % 256 ^ 4
  count : layout.count data' = layout.count data + 1
  key_lt : ∀ i < layout.count data, layout.key data' i = layout.key data i
  key_count : layout.key data' (layout.count data) = child

theorem addLink_spec (layout : LinkLayout) (child : SolPubkey) {data : List UInt8}
    (hlen : layout.structSize ≤ data.length) (hroom : layout.count data < layout.maxCount) :
    ∃ data', layout.addLink child data = some data' ∧ Linked layout child data data' := by
  have hheader := layout.header_le
  have hcount := layout.count_le
  have hkeys := layout.keys_le
  have hword : ∀ w n, (leBytes w n).length = w := length_leBytes
  have hchild : child.1.length = 32 := child.2
  obtain ⟨d₀, h₀⟩ := exists_writeAt (show layout.countAt +
    (leBytes layout.countWidth (layout.count data + 1)).length ≤ data.length by rw [hword]; omega)
  have l₀ := length_of_writeAt h₀
  obtain ⟨d₁, h₁⟩ := exists_writeAt
    (show layout.keysAt + 32 * layout.count data + child.1.length ≤ d₀.length by omega)
  have l₁ := length_of_writeAt h₁
  obtain ⟨d₂, h₂⟩ := exists_writeAt
    (show 12 + (leBytes 4 (layout.populated (layout.count d₁))).length ≤ d₁.length by
      rw [hword]; omega)
  have l₂ := length_of_writeAt h₂
  have hcount₁ : layout.count d₁ = layout.count data + 1 := by
    have hfit : layout.count data + 1 < 256 ^ layout.countWidth :=
      lt_of_le_of_lt hroom layout.maxCount_lt
    show readNat layout.countWidth d₁ layout.countAt = _
    rw [readNat_of_writeAt_disjoint h₁ (by omega), readNat_of_writeAt h₀, Nat.mod_eq_of_lt hfit]
  refine ⟨d₂, by simp only [LinkLayout.addLink, h₀, h₁, h₂, Option.bind_eq_bind,
    Option.bind_some], ?_⟩
  have hfield : ∀ start, start + 4 ≤ 12 → readNat 4 d₂ start = readNat 4 data start := by
    intro start hstart
    rw [readNat_of_writeAt_disjoint h₂ (by omega), readNat_of_writeAt_disjoint h₁ (by omega),
      readNat_of_writeAt_disjoint h₀ (by omega)]
  refine
    { length := by omega, behind := ?behind, magic := hfield 0 (by omega),
      version := hfield 4 (by omega), acctype := hfield 8 (by omega), size := ?size,
      count := ?count, key_lt := ?key_lt, key_count := ?key_count }
  case behind =>
    rw [drop_of_writeAt h₂ (by rw [hword]; omega), drop_of_writeAt h₁ (by omega),
      drop_of_writeAt h₀ (by rw [hword]; omega)]
  case size =>
    rw [← hcount₁]
    exact readNat_of_writeAt h₂
  case count =>
    rw [← hcount₁]
    exact readNat_of_writeAt_disjoint h₂ (by rw [hword]; omega)
  case key_lt =>
    intro i hi
    show readAt 32 d₂ (layout.keysAt + 32 * i) = readAt 32 data (layout.keysAt + 32 * i)
    rw [readAt_of_writeAt_disjoint h₂ (by rw [hword]; omega),
      readAt_of_writeAt_disjoint h₁ (by omega),
      readAt_of_writeAt_disjoint h₀ (by rw [hword]; omega)]
  case key_count =>
    show readAt 32 d₂ (layout.keysAt + 32 * layout.count data) = child
    rw [readAt_of_writeAt_disjoint h₂ (by rw [hword]; omega),
      readAt_of_writeAt_within h₁ (by omega) (by omega), Nat.sub_self]
    exact Subtype.ext (readAt_zero hchild)

/-! ## What an invocation does -/

/-- The signer, the flags, the owner and the size that `valid_signable_account`
asks for. -/
theorem validSignableAccount_iff {prm : SolParameters} {l : Ledger} {k : SolPubkey} {dlen : ℕ} :
    validSignableAccount prm l k dlen ↔ prm.isSigner k ∧ prm.isWritable k ∧
      (l k).owner = prm.programId ∧ dlen ≤ (l k).data.length := by
  simp only [validSignableAccount, Bool.and_eq_true, beq_iff_eq, decide_eq_true_eq, and_assoc]

/-- The account at `k` with other data. -/
def Ledger.setData (l : Ledger) (k : SolPubkey) (data : List UInt8) : Ledger :=
  Function.update l k { l k with data }

theorem Ledger.modify_of_eq_some {l : Ledger} {k : SolPubkey}
    {stores : List UInt8 → Option (List UInt8)} {data : List UInt8}
    (h : stores (l k).data = some data) : l.modify k stores = some (l.setData k data) := by
  rw [Ledger.modify, h]; rfl

@[simp] theorem Ledger.setData_self (l : Ledger) (k : SolPubkey) (data : List UInt8) :
    (l.setData k data k).data = data := by
  simp [Ledger.setData]

@[simp] theorem Ledger.setData_of_ne (l : Ledger) {k q : SolPubkey} (h : q ≠ k)
    (data : List UInt8) : l.setData k data q = l q := by
  simp [Ledger.setData, h]

/-- The layouts that list accounts, with the command that adds to each. -/
def addCommand : ℕ → Option LinkLayout
  | 1 => some productTable
  | 2 => some product
  | _ => none

/-- Everything an invocation can do. -/
inductive Effect (prm : SolParameters) (l : Ledger) : Result → Ledger → Prop
  | rejected : Effect prm l .errorInvalidArgument l
  | idle : Effect prm l .success l
  | table {funding table : SolPubkey} {rest : List SolPubkey} {data : List UInt8}
      (command : headerCommand prm = 0)
      (accounts : prm.accounts = funding :: table :: rest)
      (signed : validSignableAccount prm l table sizeofProductTable)
      (fresh : magic (l table).data = 0)
      (stored : Cleared sizeofProductTable synthfiVersion1 acctypeTable (productTable.populated 0)
        (l table).data data) :
      Effect prm l .success (l.setData table data)
  | linked {layout : LinkLayout} {funding parent child : SolPubkey} {rest : List SolPubkey}
      {childData parentData : List UInt8}
      (command : addCommand (headerCommand prm) = some layout)
      (accounts : prm.accounts = funding :: parent :: child :: rest)
      (signed : validSignableAccount prm l parent layout.structSize)
      (childSigned : validSignableAccount prm l child layout.childSize)
      (initialised : magic (l parent).data = synthfiMagic)
      (acctype : acctype (l parent).data = layout.acctype)
      (fresh : magic (l child).data = 0)
      (room : layout.count (l parent).data < layout.maxCount)
      (cleared : Cleared layout.childSize synthfiVersion1 layout.childAcctype layout.childSize
        (l child).data childData)
      (stored : Linked layout child (l parent).data parentData) :
      Effect prm l .success ((l.setData child childData).setData parent parentData)

section Table

variable {prm : SolParameters} {l : Ledger} {funding table : SolPubkey} {rest : List SolPubkey}

theorem initSynthfi_of_fresh (haccounts : prm.accounts = funding :: table :: rest)
    (hfunded : validFundingAccount prm funding)
    (hsigned : validSignableAccount prm l table sizeofProductTable)
    (hmagic : magic (l table).data = 0) (hversion : version (l table).data = 0) :
    ∃ data, initSynthfi prm l = some (.success, l.setData table data) ∧
      Cleared sizeofProductTable (headerVersion prm) acctypeTable (productTable.populated 0)
        (l table).data data := by
  obtain ⟨data, hdata, hcleared⟩ := initAccount_spec (headerVersion prm) acctypeTable
    (productTable.populated 0) (by decide) (validSignableAccount_iff.mp hsigned).2.2.2
  refine ⟨data, ?_, hcleared⟩
  simp only [initSynthfi, haccounts]
  rw [if_neg (not_not.mpr ⟨hfunded, hsigned⟩), if_neg (by simp [hmagic, hversion]),
    Ledger.modify_of_eq_some hdata]
  rfl

theorem initSynthfi_of_not_fresh (haccounts : prm.accounts = funding :: table :: rest)
    (h : ¬ (validFundingAccount prm funding ∧
      validSignableAccount prm l table sizeofProductTable ∧
      magic (l table).data = 0 ∧ version (l table).data = 0)) : initSynthfi prm l = reject l := by
  simp only [initSynthfi, haccounts]
  split
  case isTrue => rfl
  case isFalse hvalid =>
  split
  case isTrue => rfl
  case isFalse hfresh =>
  obtain ⟨hfunded, hsigned⟩ := not_not.mp hvalid
  obtain ⟨hmagic, hversion⟩ := not_or.mp hfresh
  exact absurd ⟨hfunded, hsigned, not_not.mp hmagic, not_not.mp hversion⟩ h

theorem initSynthfi_effect (l : Ledger) (hcommand : headerCommand prm = 0)
    (hversion : headerVersion prm = synthfiVersion1) :
    ∃ r l', initSynthfi prm l = some (r, l') ∧ Effect prm l r l' := by
  match haccounts : prm.accounts with
  | [] => exact ⟨_, _, by simp only [initSynthfi, haccounts, reject], .rejected⟩
  | [_] => exact ⟨_, _, by simp only [initSynthfi, haccounts, reject], .rejected⟩
  | funding :: table :: rest =>
    by_cases h : validFundingAccount prm funding ∧
        validSignableAccount prm l table sizeofProductTable ∧
        magic (l table).data = 0 ∧ version (l table).data = 0
    · obtain ⟨hfunded, hsigned, hmagic, hfresh⟩ := h
      obtain ⟨data, hinit, hcleared⟩ := initSynthfi_of_fresh haccounts hfunded hsigned hmagic hfresh
      exact ⟨_, _, hinit, .table hcommand haccounts hsigned hmagic (hversion ▸ hcleared)⟩
    · exact ⟨_, _, initSynthfi_of_not_fresh haccounts h, .rejected⟩

end Table

/-- The checks of `init_product` and `init_deposit_account` on their three
accounts. -/
@[mk_iff]
structure Accepts (layout : LinkLayout) (prm : SolParameters) (l : Ledger)
    (funding parent child : SolPubkey) : Prop where
  funded : validFundingAccount prm funding
  signed : validSignableAccount prm l parent layout.structSize
  childSigned : validSignableAccount prm l child layout.childSize
  initialised : magic (l parent).data = synthfiMagic
  sameVersion : version (l parent).data = headerVersion prm
  acctype : acctype (l parent).data = layout.acctype
  fresh : magic (l child).data = 0
  room : layout.count (l parent).data < layout.maxCount

instance (layout : LinkLayout) (prm : SolParameters) (l : Ledger)
    (funding parent child : SolPubkey) : Decidable (Accepts layout prm l funding parent child) :=
  decidable_of_iff' _ (accepts_iff ..)

section Linked

variable {prm : SolParameters} {layout : LinkLayout} {l : Ledger}
  {funding parent child : SolPubkey} {rest : List SolPubkey}

theorem initLinked_of_not_accepts (haccounts : prm.accounts = funding :: parent :: child :: rest)
    (h : ¬ Accepts layout prm l funding parent child) : initLinked layout prm l = reject l := by
  simp only [initLinked, haccounts]
  split
  case isTrue => rfl
  case isFalse hvalid =>
  split
  case isTrue => rfl
  case isFalse hchecks =>
  obtain ⟨hfunding, hparent, hchild⟩ := not_not.mp hvalid
  simp only [not_or, not_not, not_le] at hchecks
  obtain ⟨hmagic, hversion, hacctype, hfresh, hroom⟩ := hchecks
  exact absurd ⟨hfunding, hparent, hchild, hmagic, hversion, hacctype, hfresh, hroom⟩ h

/-- The account that lists is initialised and the new one is not. -/
theorem Accepts.ne (h : Accepts layout prm l funding parent child) : parent ≠ child := by
  rintro rfl
  have hmagic := h.initialised
  rw [h.fresh] at hmagic
  exact absurd hmagic (by decide)

theorem initLinked_of_accepts (haccounts : prm.accounts = funding :: parent :: child :: rest)
    (h : Accepts layout prm l funding parent child) :
    ∃ childData parentData,
      initLinked layout prm l =
        some (.success, (l.setData child childData).setData parent parentData) ∧
      Cleared layout.childSize (headerVersion prm) layout.childAcctype layout.childSize
        (l child).data childData ∧
      Linked layout child (l parent).data parentData := by
  obtain ⟨childData, hchildData, hcleared⟩ := initAccount_spec (headerVersion prm)
    layout.childAcctype layout.childSize layout.child_header_le
    (validSignableAccount_iff.mp h.childSigned).2.2.2
  obtain ⟨parentData, hparentData, hlinked⟩ := addLink_spec layout child
    (validSignableAccount_iff.mp h.signed).2.2.2 h.room
  have hparentData' : layout.addLink child (l.setData child childData parent).data =
      some parentData := by rwa [Ledger.setData_of_ne _ h.ne]
  have hvalid : ¬¬ (validFundingAccount prm funding ∧
      validSignableAccount prm l parent layout.structSize ∧
      validSignableAccount prm l child layout.childSize) :=
    not_not.mpr ⟨h.funded, h.signed, h.childSigned⟩
  have hchecks : ¬ (magic (l parent).data ≠ synthfiMagic ∨
      version (l parent).data ≠ headerVersion prm ∨
      acctype (l parent).data ≠ layout.acctype ∨ magic (l child).data ≠ 0 ∨
      layout.maxCount ≤ layout.count (l parent).data) := by
    simp only [not_or, not_not, not_le]
    exact ⟨h.initialised, h.sameVersion, h.acctype, h.fresh, h.room⟩
  refine ⟨childData, parentData, ?_, hcleared, hlinked⟩
  simp only [initLinked, haccounts]
  rw [if_neg hvalid, if_neg hchecks, Ledger.modify_of_eq_some hchildData, Option.bind_eq_bind,
    Option.bind_some, Ledger.modify_of_eq_some hparentData']
  rfl

theorem initLinked_effect (l : Ledger) (hcommand : addCommand (headerCommand prm) = some layout)
    (hversion : headerVersion prm = synthfiVersion1) :
    ∃ r l', initLinked layout prm l = some (r, l') ∧ Effect prm l r l' := by
  match haccounts : prm.accounts with
  | [] => exact ⟨_, _, by simp only [initLinked, haccounts, reject], .rejected⟩
  | [_] => exact ⟨_, _, by simp only [initLinked, haccounts, reject], .rejected⟩
  | [_, _] => exact ⟨_, _, by simp only [initLinked, haccounts, reject], .rejected⟩
  | funding :: parent :: child :: rest =>
    by_cases h : Accepts layout prm l funding parent child
    · obtain ⟨childData, parentData, hlinked, hcleared, hstored⟩ :=
        initLinked_of_accepts haccounts h
      exact ⟨_, _, hlinked, .linked hcommand haccounts h.signed h.childSigned h.initialised
        h.acctype h.fresh h.room (hversion ▸ hcleared) hstored⟩
    · exact ⟨_, _, initLinked_of_not_accepts haccounts h, .rejected⟩

end Linked

/-- **Every invocation has a result and one of the effects.** -/
theorem dispatch_effect (prm : SolParameters) (l : Ledger) :
    ∃ r l', dispatch prm l = some (r, l') ∧ Effect prm l r l' := by
  rw [dispatch]
  split
  case isTrue => exact ⟨_, _, rfl, .rejected⟩
  case isFalse =>
  split
  case isFalse => exact ⟨_, _, rfl, .rejected⟩
  case isTrue hversion =>
  match hcommand : headerCommand prm with
  | 0 =>
    simp only [dispatch1, hcommand]
    exact initSynthfi_effect l hcommand hversion
  | 1 =>
    simp only [dispatch1, hcommand]
    exact initLinked_effect l (by rw [hcommand]; rfl) hversion
  | 2 =>
    simp only [dispatch1, hcommand]
    exact initLinked_effect l (by rw [hcommand]; rfl) hversion
  | 3 => exact ⟨_, _, by simp only [dispatch1, hcommand, synthesizeSynthfiProduct], .idle⟩
  | 4 => exact ⟨_, _, by simp only [dispatch1, hcommand, redeemSynthfiProduct], .idle⟩
  | n + 5 => exact ⟨_, _, by simp only [dispatch1, hcommand, reject], .rejected⟩

/-! ## Who may change -/

/-- The size of the structure a command casts the data of an account to, by
the position of the account. -/
def castSize : ℕ → ℕ → Option ℕ
  | 0, 1 => some sizeofProductTable
  | 1, 1 => some sizeofProductTable
  | 1, 2 => some sizeofProduct
  | 2, 1 => some sizeofProduct
  | 2, 2 => some sizeofDepositAccount
  | _, _ => none

/-- The account at `k` was passed to be written, and only the structure
written into it differs in `data`. -/
structure Authorised (prm : SolParameters) (l : Ledger) (k : SolPubkey) (data : List UInt8) :
    Prop where
  signer : prm.isSigner k
  writable : prm.isWritable k
  owned : (l k).owner = prm.programId
  length : data.length = (l k).data.length
  written : ∃ i size, prm.accounts[i]? = some k ∧ castSize (headerCommand prm) i = some size ∧
    size ≤ (l k).data.length ∧ data.drop size = (l k).data.drop size

theorem authorised_of_signed {prm : SolParameters} {l : Ledger} {k : SolPubkey}
    {data : List UInt8} {size i : ℕ} (hsigned : validSignableAccount prm l k size)
    (hi : prm.accounts[i]? = some k) (hcast : castSize (headerCommand prm) i = some size)
    (hlength : data.length = (l k).data.length)
    (hbehind : data.drop size = (l k).data.drop size) : Authorised prm l k data := by
  obtain ⟨hsigner, hwritable, howned, hsize⟩ := validSignableAccount_iff.mp hsigned
  exact ⟨hsigner, hwritable, howned, hlength, i, size, hi, hcast, hsize, hbehind⟩

/-- The two sizes of a command that adds an account. -/
theorem castSize_of_addCommand {command : ℕ} {layout : LinkLayout}
    (h : addCommand command = some layout) :
    castSize command 1 = some layout.structSize ∧ castSize command 2 = some layout.childSize := by
  match command, h with
  | 1, h => obtain rfl := Option.some.inj h; exact ⟨rfl, rfl⟩
  | 2, h => obtain rfl := Option.some.inj h; exact ⟨rfl, rfl⟩

theorem Effect.unchanged {prm : SolParameters} {l l' : Ledger} {r : Result}
    (h : Effect prm l r l') (hr : r ≠ .success) : l' = l := by
  cases h with
  | rejected => rfl
  | idle => exact absurd rfl hr
  | table => exact absurd rfl hr
  | linked => exact absurd rfl hr

theorem Effect.authorised {prm : SolParameters} {l l' : Ledger} {r : Result}
    (h : Effect prm l r l') {k : SolPubkey} (hk : (l' k).data ≠ (l k).data) :
    Authorised prm l k (l' k).data := by
  cases h with
  | rejected => exact absurd rfl hk
  | idle => exact absurd rfl hk
  | @table funding table rest data command accounts signed fresh stored =>
    by_cases hkt : k = table
    · subst hkt
      rw [Ledger.setData_self]
      exact authorised_of_signed signed (i := 1) (by rw [accounts]; rfl) (by rw [command]; rfl)
        stored.length stored.behind
    · rw [Ledger.setData_of_ne _ hkt] at hk
      exact absurd rfl hk
  | @linked layout funding parent child rest childData parentData command accounts signed
      childSigned initialised acctype fresh room cleared stored =>
    obtain ⟨hparent, hchild⟩ := castSize_of_addCommand command
    by_cases hkp : k = parent
    · subst hkp
      rw [Ledger.setData_self]
      exact authorised_of_signed signed (i := 1) (by rw [accounts]; rfl) hparent
        stored.length stored.behind
    · rw [Ledger.setData_of_ne _ hkp] at hk ⊢
      by_cases hkc : k = child
      · subst hkc
        rw [Ledger.setData_self]
        exact authorised_of_signed childSigned (i := 2) (by rw [accounts]; rfl) hchild
          cleared.length cleared.behind
      · rw [Ledger.setData_of_ne _ hkc] at hk
        exact absurd rfl hk

/-- **Only authorised accounts change, and a failure changes nothing.** An
invocation always has a result; if that is not `success` the ledger is the
one before, and every account whose data changed was passed as a signer, as
writable, is owned by the program and holds the structure written into it. -/
theorem entrypoint_authorised (input : Option SolParameters) (l : Ledger) :
    ∃ r l', entrypoint input l = some (r, l') ∧ (r ≠ .success → l' = l) ∧
      ∀ k, (l' k).data ≠ (l k).data → ∃ prm, input = some prm ∧ Authorised prm l k (l' k).data := by
  match input with
  | none => exact ⟨_, l, rfl, fun _ => rfl, fun k hk => absurd rfl hk⟩
  | some prm =>
    obtain ⟨r, l', hdispatch, heffect⟩ := dispatch_effect prm l
    exact ⟨r, l', hdispatch, heffect.unchanged, fun k hk => ⟨prm, rfl, heffect.authorised hk⟩⟩

/-! ## The registry as a forest -/

/-- The keys an initialised account lists. -/
def linksOf (data : List UInt8) : List SolPubkey :=
  if acctype data = acctypeTable then productTable.keys data
  else if acctype data = acctypeProduct then product.keys data
  else []

/-- The node an account's data stands for. -/
def nodeOf (data : List UInt8) : Option (Node SolPubkey) :=
  if magic data = synthfiMagic then some ⟨acctype data, linksOf data⟩ else none

def forestOf (l : Ledger) : Forest SolPubkey := fun k => nodeOf (l k).data

/-- Tables over products over deposit accounts. -/
def registryShape : Shape where
  top := acctypeTable
  bottom := acctypeDeposit
  capacity
    | 1 => productTable.maxCount
    | 2 => product.maxCount
    | _ => 0

theorem forestOf_setData (l : Ledger) (k : SolPubkey) (data : List UInt8) :
    forestOf (l.setData k data) = Function.update (forestOf l) k (nodeOf data) := by
  funext q
  by_cases hq : q = k
  · subst hq
    simp [forestOf]
  · simp [forestOf, hq]

theorem nodeOf_of_magic_eq_zero {data : List UInt8} (h : magic data = 0) : nodeOf data = none := by
  rw [nodeOf, h]; rfl

/-- The layouts, and what makes each of them one. -/
theorem layout_cases {command : ℕ} {layout : LinkLayout} (h : addCommand command = some layout) :
    layout = productTable ∨ layout = product := by
  match command, h with
  | 1, h => exact .inl (Option.some.inj h).symm
  | 2, h => exact .inr (Option.some.inj h).symm

theorem linksOf_of_acctype {layout : LinkLayout}
    (hlayout : layout = productTable ∨ layout = product) {data : List UInt8}
    (h : acctype data = layout.acctype) : linksOf data = layout.keys data := by
  rcases hlayout with rfl | rfl <;> rw [linksOf, h] <;> rfl

/-- A cleared account lists nothing. -/
theorem keys_of_cleared {layout : LinkLayout} {v t s : ℕ} {data data' : List UInt8}
    (h : Cleared layout.structSize v t s data data') : layout.keys data' = [] := by
  have hcount : layout.count data' = 0 := by
    have hheader := layout.header_le
    have hcount := layout.count_le
    have hkeys := layout.keys_le
    exact h.zero _ _ hheader (by omega)
  rw [LinkLayout.keys, hcount]; rfl

theorem nodeOf_of_cleared_child {layout : LinkLayout}
    (hlayout : layout = productTable ∨ layout = product) {v s : ℕ} {data data' : List UInt8}
    (h : Cleared layout.childSize v layout.childAcctype s data data') :
    nodeOf data' = some ⟨layout.acctype + 1, []⟩ := by
  rcases hlayout with rfl | rfl
  · have hacctype : acctype data' = product.acctype := h.acctype
    have hlinks := linksOf_of_acctype (.inr rfl) hacctype
    rw [nodeOf, if_pos h.magic, hlinks, keys_of_cleared h, hacctype]; rfl
  · have hacctype : acctype data' = acctypeDeposit := h.acctype
    rw [nodeOf, if_pos h.magic, linksOf, hacctype]; rfl

/-- A new key goes to the end of the list. -/
theorem keys_of_linked {layout : LinkLayout} {child : SolPubkey} {data data' : List UInt8}
    (h : Linked layout child data data') :
    layout.keys data' = layout.keys data ++ [child] := by
  have hold : (List.range (layout.count data)).map (layout.key data') = layout.keys data :=
    List.map_congr_left fun i hi => h.key_lt i (List.mem_range.mp hi)
  rw [LinkLayout.keys, h.count, List.range_succ, List.map_append, hold, List.map_singleton,
    h.key_count]

/-- A table that is made is a node of the top level. -/
theorem forestOf_table {l : Ledger} {table : SolPubkey} {v s : ℕ} {data : List UInt8}
    (h : Cleared sizeofProductTable v acctypeTable s (l table).data data) :
    forestOf (l.setData table data) = plant registryShape (forestOf l) table := by
  have hacctype : acctype data = productTable.acctype := h.acctype
  have hcleared : Cleared productTable.structSize _ _ _ _ data := h
  have hnode : nodeOf data = some ⟨acctypeTable, []⟩ := by
    rw [nodeOf, if_pos h.magic, linksOf_of_acctype (.inl rfl) hacctype, keys_of_cleared hcleared,
      hacctype]
    rfl
  rw [forestOf_setData, hnode]
  rfl

theorem forestOf_of_initialised {layout : LinkLayout}
    (hlayout : layout = productTable ∨ layout = product) {l : Ledger} {k : SolPubkey}
    (hmagic : magic (l k).data = synthfiMagic) (hacctype : acctype (l k).data = layout.acctype) :
    forestOf l k = some ⟨layout.acctype, layout.keys (l k).data⟩ := by
  rw [forestOf, nodeOf, if_pos hmagic, hacctype, linksOf_of_acctype hlayout hacctype]

/-- An account that is added is a node under the one that lists it. -/
theorem forestOf_linked {layout : LinkLayout} (hlayout : layout = productTable ∨ layout = product)
    {l : Ledger} {parent child : SolPubkey} {v : ℕ} {childData parentData : List UInt8}
    (hmagic : magic (l parent).data = synthfiMagic)
    (hacctype : acctype (l parent).data = layout.acctype)
    (cleared : Cleared layout.childSize v layout.childAcctype layout.childSize (l child).data
      childData)
    (stored : Linked layout child (l parent).data parentData) :
    forestOf ((l.setData child childData).setData parent parentData) =
      link (forestOf l) parent ⟨layout.acctype, layout.keys (l parent).data⟩ child := by
  have hsame : acctype parentData = layout.acctype := stored.acctype.trans hacctype
  have hparent : nodeOf parentData =
      some ⟨layout.acctype, layout.keys (l parent).data ++ [child]⟩ := by
    rw [nodeOf, if_pos (stored.magic.trans hmagic), hsame, linksOf_of_acctype hlayout hsame,
      keys_of_linked stored]
  rw [forestOf_setData, forestOf_setData, hparent, nodeOf_of_cleared_child hlayout cleared]
  rfl

theorem length_keys (layout : LinkLayout) (data : List UInt8) :
    (layout.keys data).length = layout.count data := by
  simp [LinkLayout.keys]

/-- **An invocation refines an operation of the forest**: none, a new table,
or a new account linked from the one above it. -/
theorem Effect.forest {prm : SolParameters} {l l' : Ledger} {r : Result}
    (h : Effect prm l r l') :
    l' = l ∨
      (∃ k, forestOf l k = none ∧ forestOf l' = plant registryShape (forestOf l) k) ∨
      ∃ p n c, forestOf l p = some n ∧ forestOf l c = none ∧
        n.links.length < registryShape.capacity n.level ∧ n.level < registryShape.bottom ∧
        forestOf l' = link (forestOf l) p n c := by
  cases h with
  | rejected => exact .inl rfl
  | idle => exact .inl rfl
  | @table funding table rest data command accounts signed fresh stored =>
    exact .inr (.inl ⟨table, nodeOf_of_magic_eq_zero fresh, forestOf_table stored⟩)
  | @linked layout funding parent child rest childData parentData command accounts signed
      childSigned initialised acctype fresh room cleared stored =>
    have hlayout := layout_cases command
    refine .inr (.inr ⟨parent, _, child, forestOf_of_initialised hlayout initialised acctype,
      nodeOf_of_magic_eq_zero fresh, ?_, ?_,
      forestOf_linked hlayout initialised acctype cleared stored⟩)
    · rw [length_keys]
      rcases hlayout with rfl | rfl <;> exact room
    · show layout.acctype < acctypeDeposit
      rcases hlayout with rfl | rfl <;> decide

/-! ## The registry invariant -/

/-- The account at `k` is initialised with the given type. -/
def Holds (l : Ledger) (acctype : ℕ) (k : SolPubkey) : Prop :=
  magic (l k).data = synthfiMagic ∧ Program.acctype (l k).data = acctype

/-- Slot `i` of the account at `parent` holds the key `child`. -/
def Lists (layout : LinkLayout) (l : Ledger) (parent : SolPubkey) (i : ℕ) (child : SolPubkey) :
    Prop :=
  Holds l layout.acctype parent ∧ i < layout.count (l parent).data ∧
    layout.key (l parent).data i = child

structure RegistryInvariant (l : Ledger) : Prop where
  header : ∀ k, magic (l k).data = synthfiMagic →
    version (l k).data = synthfiVersion1 ∧
      acctype (l k).data ∈ [acctypeTable, acctypeProduct, acctypeDeposit]
  count_le : ∀ layout ∈ [productTable, product], ∀ p, Holds l layout.acctype p →
    layout.count (l p).data ≤ layout.maxCount
  distinct : ∀ layout ∈ [productTable, product], ∀ p, Holds l layout.acctype p →
    ∀ i < layout.count (l p).data, ∀ j < layout.count (l p).data,
      layout.key (l p).data i = layout.key (l p).data j → i = j
  entry : ∀ layout ∈ [productTable, product], ∀ p i c, Lists layout l p i c →
    Holds l layout.childAcctype c
  listed_once : ∀ layout ∈ [productTable, product], ∀ c, Holds l layout.childAcctype c →
    ∃! slot : SolPubkey × ℕ, Lists layout l slot.1 slot.2 c

theorem forestOf_of_holds {layout : LinkLayout} (hlayout : layout ∈ [productTable, product])
    {l : Ledger} {p : SolPubkey} (h : Holds l layout.acctype p) :
    forestOf l p = some ⟨layout.acctype, layout.keys (l p).data⟩ :=
  forestOf_of_initialised (by simpa using hlayout) h.1 h.2

theorem holds_of_forestOf {l : Ledger} {k : SolPubkey} {n : Node SolPubkey}
    (h : forestOf l k = some n) : Holds l n.level k := by
  rw [forestOf, nodeOf, Option.ite_none_right_eq_some, Option.some.injEq] at h
  obtain ⟨hmagic, rfl⟩ := h
  exact ⟨hmagic, rfl⟩

theorem exists_forestOf_of_holds {l : Ledger} {t : ℕ} {k : SolPubkey} (h : Holds l t k) :
    ∃ n, forestOf l k = some n ∧ n.level = t := by
  refine ⟨⟨acctype (l k).data, linksOf (l k).data⟩, ?_, h.2⟩
  rw [forestOf, nodeOf, if_pos h.1]

/-- A slot is a position of the node's list. -/
theorem lists_iff {layout : LinkLayout} {l : Ledger} {p : SolPubkey} {i : ℕ} {c : SolPubkey} :
    Lists layout l p i c ↔
      Holds l layout.acctype p ∧ (layout.keys (l p).data)[i]? = some c := by
  have hkeys : (layout.keys (l p).data)[i]? = some c ↔
      i < layout.count (l p).data ∧ layout.key (l p).data i = c := by
    rw [LinkLayout.keys, List.getElem?_map]
    by_cases hi : i < layout.count (l p).data <;> simp [hi]
  rw [Lists, hkeys]

theorem registryShape_layout {layout : LinkLayout} (hlayout : layout ∈ [productTable, product]) :
    registryShape.capacity layout.acctype = layout.maxCount ∧
      layout.childAcctype = layout.acctype + 1 ∧ registryShape.top < layout.childAcctype := by
  rcases (by simpa using hlayout : layout = productTable ∨ layout = product) with rfl | rfl <;>
    exact ⟨rfl, rfl, by decide⟩

/-- A valid forest and version 1 in every header make the registry. -/
theorem registryInvariant_of_valid {l : Ledger} (hvalid : Valid registryShape (forestOf l))
    (hversion : ∀ k, magic (l k).data = synthfiMagic → version (l k).data = synthfiVersion1) :
    RegistryInvariant l := by
  refine
    { header := ?header, count_le := ?count_le, distinct := ?distinct, entry := ?entry,
      listed_once := ?listed_once }
  case header =>
    intro k hmagic
    refine ⟨hversion k hmagic, ?_⟩
    obtain ⟨n, hn, hlevel⟩ := exists_forestOf_of_holds ⟨hmagic, rfl⟩
    have htop : 1 ≤ n.level := hvalid.top_le hn
    have hbottom : n.level ≤ 3 := hvalid.le_bottom hn
    have : acctype (l k).data = 1 ∨ acctype (l k).data = 2 ∨ acctype (l k).data = 3 := by omega
    simpa [acctypeTable, acctypeProduct, acctypeDeposit] using this
  case count_le =>
    intro layout hlayout p hp
    have hlength := hvalid.length_le (forestOf_of_holds hlayout hp)
    rwa [(registryShape_layout hlayout).1, length_keys] at hlength
  case distinct =>
    intro layout hlayout p hp i hi j hj hij
    have hnodup := hvalid.nodup (forestOf_of_holds hlayout hp)
    have hlength := length_keys layout (l p).data
    have hi' := (lists_iff.mp ⟨hp, hi, rfl⟩ :).2
    have hj' := (lists_iff.mp ⟨hp, hj, hij.symm⟩ :).2
    exact (List.getElem?_inj (hlength ▸ hi) hnodup).mp (hi'.trans hj'.symm)
  case entry =>
    intro layout hlayout p i c hlists
    obtain ⟨hp, hc⟩ := lists_iff.mp hlists
    obtain ⟨m, hm, hlevel⟩ := hvalid.below (forestOf_of_holds hlayout hp)
      (List.mem_of_getElem? hc)
    rw [(registryShape_layout hlayout).2.1, ← hlevel]
    exact holds_of_forestOf hm
  case listed_once =>
    intro layout hlayout c hc
    obtain ⟨-, hchild, htop⟩ := registryShape_layout hlayout
    obtain ⟨m, hm, hlevel⟩ := exists_forestOf_of_holds hc
    obtain ⟨p, n, hp, hmem⟩ := hvalid.linked hm (hlevel ▸ htop)
    -- the node that links the child is of the layout's own type
    obtain ⟨m', hm', hbelow⟩ := hvalid.below hp hmem
    have hholds : Holds l layout.acctype p := by
      have hlevels : n.level = layout.acctype := by
        obtain rfl : m = m' := Option.some.inj (hm.symm.trans hm')
        omega
      exact hlevels ▸ holds_of_forestOf hp
    have hnode := forestOf_of_holds hlayout hholds
    obtain rfl : n = ⟨layout.acctype, layout.keys (l p).data⟩ :=
      Option.some.inj (hp.symm.trans hnode)
    obtain ⟨i, hi⟩ := List.mem_iff_getElem?.mp hmem
    refine ⟨(p, i), lists_iff.mpr ⟨hholds, hi⟩, fun slot hslot => ?_⟩
    obtain ⟨hq, hj⟩ := lists_iff.mp hslot
    have hqp : slot.1 = p := hvalid.linked_once (forestOf_of_holds hlayout hq) hnode
      (List.mem_of_getElem? hj) hmem
    rw [hqp] at hj
    have hlt : i < (layout.keys (l p).data).length := (List.getElem?_eq_some_iff.mp hi).1
    have hij : slot.2 = i :=
      ((List.getElem?_inj hlt (hvalid.nodup hnode)).mp (hi.trans hj.symm)).symm
    exact Prod.ext hqp hij

/-! ## Runs -/

/-- One invocation as a step of the ledger. -/
def ledgerStep (l : Ledger) (input : Option SolParameters) : Option Ledger :=
  (entrypoint input l).map Prod.snd

/-- What every invocation keeps. -/
structure Registered (l : Ledger) : Prop where
  valid : Valid registryShape (forestOf l)
  version : ∀ k, magic (l k).data = synthfiMagic → version (l k).data = synthfiVersion1

theorem version_setData {l : Ledger} {k : SolPubkey} {data : List UInt8}
    (hl : ∀ q, magic (l q).data = synthfiMagic → version (l q).data = synthfiVersion1)
    (hdata : version data = synthfiVersion1) (q : SolPubkey)
    (hq : magic (l.setData k data q).data = synthfiMagic) :
    version (l.setData k data q).data = synthfiVersion1 := by
  by_cases hqk : q = k
  · subst hqk
    rwa [Ledger.setData_self]
  · rw [Ledger.setData_of_ne _ hqk] at hq ⊢
    exact hl q hq

theorem Effect.registered {prm : SolParameters} {l l' : Ledger} {r : Result}
    (h : Effect prm l r l') (hl : Registered l) : Registered l' where
  valid := by
    rcases h.forest with rfl | ⟨k, hk, hplant⟩ | ⟨p, n, c, hp, hc, hroom, hlevel, hlink⟩
    · exact hl.valid
    · rw [hplant]
      exact hl.valid.plant (by decide) hk
    · rw [hlink]
      exact hl.valid.link hp hc hroom hlevel
  version := by
    cases h with
    | rejected => exact hl.version
    | idle => exact hl.version
    | table command accounts signed fresh stored =>
      exact version_setData hl.version stored.version
    | linked command accounts signed childSigned initialised acctype fresh room cleared stored =>
      refine version_setData (version_setData hl.version cleared.version) ?_
      rw [stored.version]
      exact hl.version _ initialised

/-- An invocation always leads to a ledger, and keeps what is registered. -/
theorem ledgerStep_registered {l : Ledger} (hl : Registered l) (input : Option SolParameters) :
    ∃ l', ledgerStep l input = some l' ∧ Registered l' := by
  match input with
  | none => exact ⟨l, rfl, hl⟩
  | some prm =>
    obtain ⟨r, l', hdispatch, heffect⟩ := dispatch_effect prm l
    exact ⟨l', by rw [ledgerStep, entrypoint, hdispatch]; rfl, heffect.registered hl⟩

theorem run_registered {l : Ledger} (hl : Registered l) (inputs : List (Option SolParameters)) :
    ∃ t, Run.run ledgerStep l inputs = some t ∧ Registered t := by
  induction inputs generalizing l with
  | nil => exact ⟨l, rfl, hl⟩
  | cons input inputs ih =>
    obtain ⟨l', hstep, hl'⟩ := ledgerStep_registered hl input
    obtain ⟨t, ht, hregistered⟩ := ih hl'
    exact ⟨t, Run.run_cons_eq_some.mpr ⟨l', hstep, ht⟩, hregistered⟩

theorem readNat_eq_zero {data : List UInt8} (h : ∀ b ∈ data, b = 0) (w start : ℕ) :
    readNat w data start = 0 := by
  rw [List.eq_replicate_of_mem h]
  exact readNat_replicate w _ start

theorem registered_of_zero {l : Ledger} (h : ∀ k, ∀ b ∈ (l k).data, b = 0) : Registered l := by
  have hmagic : ∀ k, magic (l k).data = 0 := fun k => readNat_eq_zero (h k) 4 0
  have hforest : forestOf l = fun _ => none := by
    funext k
    exact nodeOf_of_magic_eq_zero (hmagic k)
  refine ⟨hforest ▸ valid_empty registryShape, fun k hk => ?_⟩
  rw [hmagic k] at hk
  exact absurd hk (by decide)

/-- **The registry invariant.** From accounts whose data is all zero, every
sequence of invocations leads to a ledger in which each initialised account
has version 1 and one of the three types, each table and each product lists
distinct initialised accounts of the type below it, and each of those is
listed in exactly one slot. -/
theorem registry_reachable {l : Ledger} (hzero : ∀ k, ∀ b ∈ (l k).data, b = 0)
    (inputs : List (Option SolParameters)) :
    ∃ t, Run.run ledgerStep l inputs = some t ∧ RegistryInvariant t := by
  obtain ⟨t, ht, hregistered⟩ := run_registered (registered_of_zero hzero) inputs
  exact ⟨t, ht, registryInvariant_of_valid hregistered.valid hregistered.version⟩

/-- Keys for a run: a table, a product, a deposit account and who pays. -/
def runKey (b : UInt8) : SolPubkey := ByteArr.fill 32 b

def zeroLedger : Ledger := fun _ => ⟨runKey 9, List.replicate sizeofProduct 0⟩

/-- An invocation in which everybody signs. -/
def signedInput (command : ℕ) (accounts : List SolPubkey) : Option SolParameters :=
  some
    { accounts, isSigner := fun _ => true, isWritable := fun _ => true,
      data := leBytes 4 1 ++ leBytes 4 command, programId := runKey 9 }

/-- A table, a product in it, a deposit account in that, and the product
offered to the table once more. -/
def registryInputs : List (Option SolParameters) :=
  [signedInput 0 [runKey 1, runKey 2], signedInput 1 [runKey 1, runKey 2, runKey 3],
    signedInput 2 [runKey 1, runKey 3, runKey 4], signedInput 1 [runKey 1, runKey 2, runKey 3]]

theorem registry_of_registryInputs :
    ∃ t, Run.run ledgerStep zeroLedger registryInputs = some t ∧ RegistryInvariant t ∧
      productTable.keys (t (runKey 2)).data = [runKey 3] ∧
      product.keys (t (runKey 3)).data = [runKey 4] := by
  have hzero : ∀ k, ∀ b ∈ (zeroLedger k).data, b = 0 := fun _ b hb => List.eq_of_mem_replicate hb
  obtain ⟨t, ht, hregistry⟩ := registry_reachable hzero registryInputs
  have hkeys : (Run.run ledgerStep zeroLedger registryInputs).map (fun t =>
      (productTable.keys (t (runKey 2)).data, product.keys (t (runKey 3)).data)) =
      some ([runKey 3], [runKey 4]) := by decide +kernel
  rw [ht, Option.map_some, Option.some.injEq, Prod.mk.injEq] at hkeys
  exact ⟨t, ht, hregistry, hkeys⟩

end Synthfi.Program
