/-
Synthfi.Lib.LinkForest — nodes of several levels, each with a list of links
to nodes one level below.

A forest grows by two operations. `plant` puts a node of the top level where
there was none; `link` makes a node where there was none and appends it to
the list of a node one level above. `Op.apply` is the operation where the
forest has a place for it. `Valid` holds of the empty forest and is kept by
both: every list is free of duplicates and within its capacity, every
link leads to a node one level below, and every node under the top level is
linked from exactly one node.
-/
import Mathlib.Data.List.Nodup
import Mathlib.Logic.Function.Basic

namespace LinkForest

structure Node (κ : Type*) where
  level : ℕ
  links : List κ
  deriving DecidableEq

/-- Which keys hold a node, and which node. -/
abbrev Forest (κ : Type*) := κ → Option (Node κ)

/-- The top and the bottom level, and how many links a node of each level has
room for. -/
structure Shape where
  top : ℕ
  bottom : ℕ
  capacity : ℕ → ℕ

variable {κ : Type*}

structure Valid (shape : Shape) (f : Forest κ) : Prop where
  top_le : ∀ {p n}, f p = some n → shape.top ≤ n.level
  le_bottom : ∀ {p n}, f p = some n → n.level ≤ shape.bottom
  length_le : ∀ {p n}, f p = some n → n.links.length ≤ shape.capacity n.level
  nodup : ∀ {p n}, f p = some n → n.links.Nodup
  below : ∀ {p n c}, f p = some n → c ∈ n.links → ∃ m, f c = some m ∧ m.level = n.level + 1
  linked : ∀ {c m}, f c = some m → shape.top < m.level → ∃ p n, f p = some n ∧ c ∈ n.links
  linked_once : ∀ {p q n m c}, f p = some n → f q = some m → c ∈ n.links → c ∈ m.links → p = q

variable {shape : Shape} {f : Forest κ}

theorem valid_empty (shape : Shape) : Valid shape (fun _ : κ => none) where
  top_le := nofun
  le_bottom := nofun
  length_le := nofun
  nodup := nofun
  below := nofun
  linked := nofun
  linked_once := nofun

/-- In a valid forest a key without a node is linked from nowhere. -/
theorem Valid.not_mem_links (h : Valid shape f) {p c : κ} {n : Node κ} (hp : f p = some n)
    (hc : f c = none) : c ∉ n.links := by
  intro hmem
  obtain ⟨m, hm, -⟩ := h.below hp hmem
  simp [hc] at hm

variable [DecidableEq κ]

/-! ## The two operations -/

/-- A new node of the top level at `k`. -/
def plant (shape : Shape) (f : Forest κ) (k : κ) : Forest κ :=
  Function.update f k (some ⟨shape.top, []⟩)

/-- A new node at `c`, linked from the node `n` at `p`. -/
def link (f : Forest κ) (p : κ) (n : Node κ) (c : κ) : Forest κ :=
  Function.update (Function.update f c (some ⟨n.level + 1, []⟩)) p
    (some ⟨n.level, n.links ++ [c]⟩)

/-- What can be asked of a forest. A link says of which level the node that
links is to be. -/
inductive Op (κ : Type*) where
  | plant (k : κ)
  | link (level : ℕ) (p c : κ)

/-- The forest after an operation; `none` where the forest has no place for it. -/
def Op.apply (shape : Shape) (f : Forest κ) : Op κ → Option (Forest κ)
  | .plant k => if f k = none then some (LinkForest.plant shape f k) else none
  | .link level p c =>
    match f p with
    | some n =>
      if n.level = level ∧ f c = none ∧ n.links.length < shape.capacity level then
        some (LinkForest.link f p n c)
      else none
    | none => none

/-- Every node after `plant`: the new one, or an old one. -/
theorem plant_eq_some {k q : κ} {m : Node κ} : plant shape f k q = some m ↔
    (q = k ∧ m = ⟨shape.top, []⟩) ∨ (q ≠ k ∧ f q = some m) := by
  by_cases hq : q = k
  · simp [plant, hq, eq_comm]
  · simp [plant, hq]

/-- **`plant` keeps a forest valid.** -/
theorem Valid.plant (h : Valid shape f) (hshape : shape.top ≤ shape.bottom) {k : κ}
    (hk : f k = none) : Valid shape (plant shape f k) := by
  have hold : ∀ {q m c}, f q = some m → c ∈ m.links → c ≠ k := fun hq hc hck =>
    h.not_mem_links hq (hck ▸ hk) hc
  refine
    { top_le := ?top_le, le_bottom := ?le_bottom, length_le := ?length_le, nodup := ?nodup,
      below := ?below, linked := ?linked, linked_once := ?linked_once }
  case top_le =>
    intro q m hq
    rcases plant_eq_some.mp hq with ⟨-, rfl⟩ | ⟨-, hq⟩
    · exact Nat.le_refl _
    · exact h.top_le hq
  case le_bottom =>
    intro q m hq
    rcases plant_eq_some.mp hq with ⟨-, rfl⟩ | ⟨-, hq⟩
    · exact hshape
    · exact h.le_bottom hq
  case length_le =>
    intro q m hq
    rcases plant_eq_some.mp hq with ⟨-, rfl⟩ | ⟨-, hq⟩
    · exact Nat.zero_le _
    · exact h.length_le hq
  case nodup =>
    intro q m hq
    rcases plant_eq_some.mp hq with ⟨-, rfl⟩ | ⟨-, hq⟩
    · exact List.nodup_nil
    · exact h.nodup hq
  case below =>
    intro q m c hq hc
    rcases plant_eq_some.mp hq with ⟨-, rfl⟩ | ⟨-, hq⟩
    · simp at hc
    · obtain ⟨m', hm', hlevel⟩ := h.below hq hc
      exact ⟨m', plant_eq_some.mpr (.inr ⟨hold hq hc, hm'⟩), hlevel⟩
  case linked =>
    intro c m hc hlevel
    rcases plant_eq_some.mp hc with ⟨-, rfl⟩ | ⟨-, hc⟩
    · exact absurd hlevel (Nat.lt_irrefl _)
    · obtain ⟨p, n, hp, hmem⟩ := h.linked hc hlevel
      have hpk : p ≠ k := by
        rintro rfl
        simp [hk] at hp
      exact ⟨p, n, plant_eq_some.mpr (.inr ⟨hpk, hp⟩), hmem⟩
  case linked_once =>
    intro p q n m c hp hq hcn hcm
    rcases plant_eq_some.mp hp with ⟨-, rfl⟩ | ⟨-, hp⟩
    · simp at hcn
    rcases plant_eq_some.mp hq with ⟨-, rfl⟩ | ⟨-, hq⟩
    · simp at hcm
    exact h.linked_once hp hq hcn hcm

/-- Every node after `link`: the parent with its longer list, the new node, or
an old one. -/
theorem link_eq_some {p c q : κ} {n m : Node κ} (hpc : p ≠ c) : link f p n c q = some m ↔
    (q = p ∧ m = ⟨n.level, n.links ++ [c]⟩) ∨ (q = c ∧ m = ⟨n.level + 1, []⟩) ∨
      (q ≠ p ∧ q ≠ c ∧ f q = some m) := by
  by_cases hqp : q = p
  · subst hqp
    simp [link, hpc, eq_comm]
  · by_cases hqc : q = c
    · simp [link, hqc, Ne.symm hpc, eq_comm]
    · simp [link, hqp, hqc]

/-- A link after `link`: the new one, or an old one. -/
theorem mem_links_link {p c q d : κ} {n m : Node κ} (hp : f p = some n) (hpc : p ≠ c)
    (hq : link f p n c q = some m) (hd : d ∈ m.links) :
    (q = p ∧ d = c) ∨ ∃ m', f q = some m' ∧ d ∈ m'.links ∧ m'.level = m.level := by
  rcases (link_eq_some hpc).mp hq with ⟨rfl, rfl⟩ | ⟨-, rfl⟩ | ⟨-, -, hq⟩
  · rcases List.mem_append.mp hd with hd | hd
    · exact .inr ⟨n, hp, hd, rfl⟩
    · exact .inl ⟨rfl, List.mem_singleton.mp hd⟩
  · simp at hd
  · exact .inr ⟨m, hq, hd, rfl⟩

/-- An old node survives `link` with its level and its links. -/
theorem exists_link_of_some {p c q : κ} {n m : Node κ} (hp : f p = some n) (hc : f c = none)
    (hq : f q = some m) :
    ∃ m', link f p n c q = some m' ∧ m'.level = m.level ∧ ∀ d ∈ m.links, d ∈ m'.links := by
  have hpc : p ≠ c := by
    rintro rfl
    simp [hc] at hp
  have hqc : q ≠ c := by
    rintro rfl
    simp [hc] at hq
  by_cases hqp : q = p
  · subst hqp
    obtain rfl : n = m := Option.some.inj (hp.symm.trans hq)
    exact ⟨_, (link_eq_some hpc).mpr (.inl ⟨rfl, rfl⟩), rfl, fun d hd => by simp [hd]⟩
  · exact ⟨m, (link_eq_some hpc).mpr (.inr (.inr ⟨hqp, hqc, hq⟩)), rfl, fun d hd => hd⟩

/-- **`link` keeps a forest valid**, as long as the parent has room and is not
at the bottom. -/
theorem Valid.link (h : Valid shape f) {p c : κ} {n : Node κ} (hp : f p = some n)
    (hc : f c = none) (hroom : n.links.length < shape.capacity n.level)
    (hlevel : n.level < shape.bottom) : Valid shape (link f p n c) := by
  have hpc : p ≠ c := by
    rintro rfl
    simp [hc] at hp
  refine
    { top_le := ?top_le, le_bottom := ?le_bottom, length_le := ?length_le, nodup := ?nodup,
      below := ?below, linked := ?linked, linked_once := ?linked_once }
  case top_le =>
    intro q m hq
    have hn := h.top_le hp
    rcases (link_eq_some hpc).mp hq with ⟨-, rfl⟩ | ⟨-, rfl⟩ | ⟨-, -, hq⟩
    · exact hn
    · exact Nat.le_succ_of_le hn
    · exact h.top_le hq
  case le_bottom =>
    intro q m hq
    rcases (link_eq_some hpc).mp hq with ⟨-, rfl⟩ | ⟨-, rfl⟩ | ⟨-, -, hq⟩
    · exact Nat.le_of_lt hlevel
    · exact hlevel
    · exact h.le_bottom hq
  case length_le =>
    intro q m hq
    rcases (link_eq_some hpc).mp hq with ⟨-, rfl⟩ | ⟨-, rfl⟩ | ⟨-, -, hq⟩
    · simpa using Nat.succ_le_of_lt hroom
    · exact Nat.zero_le _
    · exact h.length_le hq
  case nodup =>
    intro q m hq
    rcases (link_eq_some hpc).mp hq with ⟨-, rfl⟩ | ⟨-, rfl⟩ | ⟨-, -, hq⟩
    · have hfresh := h.not_mem_links hp hc
      exact (h.nodup hp).append (List.nodup_singleton c) (by simpa using hfresh)
    · exact List.nodup_nil
    · exact h.nodup hq
  case below =>
    intro q m d hq hd
    rcases mem_links_link hp hpc hq hd with ⟨rfl, rfl⟩ | ⟨m', hm', hd', hlevel'⟩
    · rcases (link_eq_some hpc).mp hq with ⟨-, rfl⟩ | ⟨hqc, -⟩ | ⟨hqp, -⟩
      · exact ⟨_, (link_eq_some hpc).mpr (.inr (.inl ⟨rfl, rfl⟩)), rfl⟩
      · exact absurd hqc hpc
      · exact absurd rfl hqp
    · obtain ⟨md, hmd, hmdlevel⟩ := h.below hm' hd'
      obtain ⟨md', hmd', hsame, -⟩ := exists_link_of_some hp hc hmd
      exact ⟨md', hmd', by rw [hsame, hmdlevel, hlevel']⟩
  case linked =>
    intro d m hd hm
    have hold : ∀ {m₀}, f d = some m₀ → shape.top < m₀.level →
        ∃ q m', LinkForest.link f p n c q = some m' ∧ d ∈ m'.links := fun hd₀ hm₀ => by
      obtain ⟨q, mq, hq, hmem⟩ := h.linked hd₀ hm₀
      obtain ⟨mq', hmq', -, hlinks⟩ := exists_link_of_some hp hc hq
      exact ⟨q, mq', hmq', hlinks d hmem⟩
    rcases (link_eq_some hpc).mp hd with ⟨rfl, rfl⟩ | ⟨rfl, rfl⟩ | ⟨-, -, hd⟩
    · exact hold hp hm
    · exact ⟨p, _, (link_eq_some hpc).mpr (.inl ⟨rfl, rfl⟩), by simp⟩
    · exact hold hd hm
  case linked_once =>
    intro q r m m' d hq hr hdm hdm'
    have hold : ∀ {q m}, f q = some m → d ∈ m.links → d ≠ c := fun hq hd hdc =>
      h.not_mem_links hq hc (hdc ▸ hd)
    rcases mem_links_link hp hpc hq hdm with ⟨rfl, rfl⟩ | ⟨mq, hmq, hdq, -⟩
    · rcases mem_links_link hp hpc hr hdm' with ⟨rfl, -⟩ | ⟨mr, hmr, hdr, -⟩
      · rfl
      · exact absurd rfl (hold hmr hdr)
    · rcases mem_links_link hp hpc hr hdm' with ⟨-, rfl⟩ | ⟨mr, hmr, hdr, -⟩
      · exact absurd rfl (hold hmq hdq)
      · exact h.linked_once hmq hmr hdq hdr

end LinkForest
