/-
Synthfi.Lib.Run — finite runs of partial, labelled step functions.

A system is a step function `σ → ε → Option σ`: the label names which
party moves and with which input, and `none` says the label is not enabled
in that state. Every source of nondeterminism sits in the label, so an
interleaving is a list of labels and a run can be evaluated.

These rules carry the run-level results that use this module.

* `invariant_along` — an invariant that every step preserves *while the
  step meets a guard* holds wherever a guarded run ends.
* `along_iff_prefixes` — when one step keeps a property exactly if it meets
  the guard, a run keeps the property in every state it passes through
  exactly if all its steps meet the guard; `along_iff_prefixes_history` has
  it for properties that speak of the labels so far.
* `isSome_run_iff_along` — a run does not stop exactly if its steps meet the
  guard, when that is so of one step.
* `forward_simulation` — a concrete step that follows a total abstract step
  wherever the abstract state admits the label follows it along every
  admitted run.
* `run_filterMap` — a part of the state that a step either leaves as it is or
  changes by a step of its own takes a run of its own.
* `invariant_history` — an invariant that speaks of the labels so far.
-/
import Mathlib.Data.List.Basic

namespace Run

variable {σ ε : Type*} {step : σ → ε → Option σ}

/-! ## Runs -/

/-- The state a label sequence leads to; `none` when some label is not
enabled where the run reaches it. -/
def run (step : σ → ε → Option σ) : σ → List ε → Option σ
  | s, [] => some s
  | s, e :: es => (step s e).bind fun s' => run step s' es

@[simp] theorem run_nil (s : σ) : run step s [] = some s := rfl

@[simp] theorem run_cons (s : σ) (e : ε) (es : List ε) :
    run step s (e :: es) = (step s e).bind fun s' => run step s' es := rfl

/-- A run of a nonempty sequence, split at its first step. -/
theorem run_cons_eq_some {s t : σ} {e : ε} {es : List ε} :
    run step s (e :: es) = some t ↔
      ∃ s', step s e = some s' ∧ run step s' es = some t := by
  rw [run_cons, Option.bind_eq_some_iff]

theorem run_append (s : σ) (es fs : List ε) :
    run step s (es ++ fs) = (run step s es).bind fun t => run step t fs := by
  induction es generalizing s with
  | nil => rfl
  | cons e es ih => simp [Option.bind_assoc, ih]

/-- The step a run takes at one of its labels. -/
theorem exists_step_of_getElem? {s t : σ} {e : ε} {es : List ε} (hrun : run step s es = some t)
    {k : ℕ} (hk : es[k]? = some e) :
    ∃ u u', run step s (es.take k) = some u ∧ step u e = some u' := by
  induction es generalizing s k with
  | nil => cases hk
  | cons e' es ih =>
    obtain ⟨s', hs', hrest⟩ := run_cons_eq_some.mp hrun
    cases k with
    | zero =>
      obtain rfl := Option.some.inj hk
      exact ⟨s, s', rfl, hs'⟩
    | succ k =>
      obtain ⟨u, u', hu, hstep⟩ := ih hrest hk
      exact ⟨u, u', run_cons_eq_some.mpr ⟨s', hs', hu⟩, hstep⟩

/-! ## Guarded runs -/

/-- Every step of the run meets `ok` in the state before it. -/
def Along (step : σ → ε → Option σ) (ok : σ → ε → Prop) : σ → List ε → Prop
  | _, [] => True
  | s, e :: es => ok s e ∧ ∀ s', step s e = some s' → Along step ok s' es

variable {ok : σ → ε → Prop}

@[simp] theorem along_nil (s : σ) : Along step ok s [] := trivial

theorem along_cons {s s' : σ} {e : ε} {es : List ε} (h : step s e = some s') :
    Along step ok s (e :: es) ↔ ok s e ∧ Along step ok s' es := by
  simp only [Along, h, Option.some.injEq, forall_eq']

theorem along_cons_of_none {s : σ} {e : ε} {es : List ε} (h : step s e = none) :
    Along step ok s (e :: es) ↔ ok s e := by
  simp [Along, h]

instance decidableAlong [∀ s e, Decidable (ok s e)] :
    (s : σ) → (es : List ε) → Decidable (Along step ok s es)
  | _, [] => .isTrue trivial
  | s, e :: es =>
    match h : step s e with
    | none => decidable_of_iff' _ (along_cons_of_none h)
    | some s' =>
      have := decidableAlong s' es
      decidable_of_iff' _ (along_cons h)

/-- A prefix of a guarded run is guarded. -/
theorem Along.take {s : σ} {es : List ε} (h : Along step ok s es) (k : ℕ) :
    Along step ok s (es.take k) := by
  induction es generalizing s k with
  | nil => simp
  | cons e es ih =>
    cases k with
    | zero => simp
    | succ k => exact ⟨h.1, fun s' hs => ih (h.2 s' hs) k⟩

theorem Along.mono {ok' : σ → ε → Prop} {s : σ} {es : List ε} (h : Along step ok s es)
    (himp : ∀ s e, ok s e → ok' s e) : Along step ok' s es := by
  induction es generalizing s with
  | nil => trivial
  | cons e es ih => exact ⟨himp s e h.1, fun s' hs => ih (h.2 s' hs)⟩

/-- A guard on the labels alone. -/
theorem along_of_forall_mem {p : ε → Prop} {s : σ} {es : List ε} (h : ∀ e ∈ es, p e) :
    Along step (fun _ e => p e) s es := by
  induction es generalizing s with
  | nil => trivial
  | cons e es ih =>
    obtain ⟨hpe, hpes⟩ := List.forall_mem_cons.mp h
    exact ⟨hpe, fun s' _ => ih hpes⟩

theorem along_true (s : σ) (es : List ε) : Along step (fun _ _ => True) s es :=
  along_of_forall_mem (p := fun _ => True) fun _ _ => trivial

/-- A part of the guard that all labels of the run meet in any state. -/
theorem along_and_iff {p : ε → Prop} {s : σ} {es : List ε} (hp : ∀ e ∈ es, p e) :
    Along step (fun s e => ok s e ∧ p e) s es ↔ Along step ok s es := by
  constructor
  · intro h
    exact h.mono fun _ _ => And.left
  · intro h
    induction es generalizing s with
    | nil => trivial
    | cons e es ih =>
      obtain ⟨hpe, hpes⟩ := List.forall_mem_cons.mp hp
      exact ⟨⟨h.1, hpe⟩, fun s' hs => ih hpes (h.2 s' hs)⟩

/-- The run rule for an invariant: it holds at the start and each step that
meets the guard preserves it. -/
theorem invariant_along {inv : σ → Prop}
    (hstep : ∀ s e s', inv s → ok s e → step s e = some s' → inv s') {s t : σ}
    {es : List ε} (hs : inv s) (hok : Along step ok s es)
    (hrun : run step s es = some t) : inv t := by
  induction es generalizing s with
  | nil =>
    obtain rfl := Option.some.inj hrun
    exact hs
  | cons e es ih =>
    obtain ⟨s', he, hes⟩ := run_cons_eq_some.mp hrun
    exact ih (hstep s e s' hs hok.1 he) (hok.2 s' he) hes

/-- The run rule for an invariant that every step preserves. -/
theorem invariant_run {inv : σ → Prop}
    (hstep : ∀ s e s', inv s → step s e = some s' → inv s') {s t : σ} {es : List ε} (hs : inv s)
    (hrun : run step s es = some t) : inv t :=
  invariant_along (fun s e s' h _ => hstep s e s' h) hs (along_true s es) hrun

/-- The run rule for an invariant of the state and the labels so far. -/
theorem invariant_history {inv : List ε → σ → Prop}
    (hstep : ∀ past s e s', inv past s → ok s e → step s e = some s' → inv (past ++ [e]) s')
    {s t : σ} {past es : List ε} (hs : inv past s) (hok : Along step ok s es)
    (hrun : run step s es = some t) : inv (past ++ es) t := by
  induction es generalizing s past with
  | nil =>
    obtain rfl := Option.some.inj hrun
    simpa using hs
  | cons e es ih =>
    obtain ⟨s', he, hes⟩ := run_cons_eq_some.mp hrun
    simpa using ih (hstep past s e s' hs hok.1 he) (hok.2 s' he) hes

/-- Where a step is enabled exactly when it meets the guard, so is a run. -/
theorem isSome_run_iff_along {inv : σ → Prop}
    (hinv : ∀ s e s', inv s → step s e = some s' → inv s')
    (hok : ∀ s e, inv s → ((step s e).isSome ↔ ok s e)) {s : σ} {es : List ε} (hs : inv s) :
    (run step s es).isSome ↔ Along step ok s es := by
  induction es generalizing s with
  | nil => simp
  | cons e es ih =>
    cases he : step s e with
    | none => simp [along_cons_of_none he, ← hok s e hs, he]
    | some s' => simp [along_cons he, ← hok s e hs, he, ih (hinv s e s' hs he)]

/-- The same where the labels of the run meet a condition. -/
theorem isSome_run_iff_along_of_mem {inv : σ → Prop} {p : ε → Prop}
    (hinv : ∀ s e s', inv s → p e → step s e = some s' → inv s')
    (hok : ∀ s e, inv s → p e → ((step s e).isSome ↔ ok s e)) {s : σ} {es : List ε} (hs : inv s)
    (hp : ∀ e ∈ es, p e) : (run step s es).isSome ↔ Along step ok s es := by
  induction es generalizing s with
  | nil => simp
  | cons e es ih =>
    obtain ⟨hpe, hpes⟩ := List.forall_mem_cons.mp hp
    cases he : step s e with
    | none => simp [along_cons_of_none he, ← hok s e hs hpe, he]
    | some s' => simp [along_cons he, ← hok s e hs hpe, he, ih (hinv s e s' hs hpe he) hpes]

/-- The exact run rule. From a state with `good`, a step leads to a state
with `good` exactly when it meets the guard, and then it preserves `inv`;
both may speak of the labels so far. Then `good` holds in every state a run
passes through exactly when all the steps of the run meet the guard. -/
theorem along_iff_prefixes_history {inv good : List ε → σ → Prop}
    (hinv : ∀ past s e s', inv past s → good past s → ok s e → step s e = some s' →
      inv (past ++ [e]) s')
    (hgood : ∀ past s e s', inv past s → good past s → step s e = some s' →
      (good (past ++ [e]) s' ↔ ok s e))
    {s t : σ} {past es : List ε} (hi : inv past s) (hg : good past s)
    (hrun : run step s es = some t) :
    (∀ k u, run step s (es.take k) = some u → good (past ++ es.take k) u) ↔
      Along step ok s es := by
  induction es generalizing s past with
  | nil =>
    refine iff_of_true (fun k u hu => ?_) trivial
    rw [List.take_nil, run_nil, Option.some.injEq] at hu
    rw [List.take_nil, List.append_nil, ← hu]
    exact hg
  | cons e es ih =>
    obtain ⟨s', he, hes⟩ := run_cons_eq_some.mp hrun
    rw [along_cons he]
    constructor
    · intro hall
      have hg' : good (past ++ [e]) s' := hall 1 s' (by simp [he])
      have hok : ok s e := (hgood past s e s' hi hg he).mp hg'
      refine ⟨hok, (ih (hinv past s e s' hi hg hok he) hg' hes).mp fun k u hu => ?_⟩
      rw [List.append_assoc]
      exact hall (k + 1) u (by simpa [he] using hu)
    · rintro ⟨hok, hal⟩ k u hu
      have hg' : good (past ++ [e]) s' := (hgood past s e s' hi hg he).mpr hok
      cases k with
      | zero =>
        rw [List.take_zero, run_nil, Option.some.injEq] at hu
        rw [List.take_zero, List.append_nil, ← hu]
        exact hg
      | succ k =>
        rw [List.take_succ_cons, run_cons, he, Option.bind_some] at hu
        have hgood' := (ih (hinv past s e s' hi hg hok he) hg' hes).mpr hal k u hu
        rwa [List.append_assoc] at hgood'

/-- The rule for an invariant and a property of the state alone. -/
theorem along_iff_prefixes {inv good : σ → Prop}
    (hinv : ∀ s e s', inv s → good s → ok s e → step s e = some s' → inv s')
    (hgood : ∀ s e s', inv s → good s → step s e = some s' → (good s' ↔ ok s e))
    {s t : σ} {es : List ε} (hi : inv s) (hg : good s)
    (hrun : run step s es = some t) :
    (∀ k u, run step s (es.take k) = some u → good u) ↔ Along step ok s es := by
  have hinv' : ∀ (_ : List ε) s e s', inv s → good s → ok s e → step s e = some s' → inv s' :=
    fun _ => hinv
  have hgood' : ∀ (_ : List ε) s e s', inv s → good s → step s e = some s' →
      (good s' ↔ ok s e) := fun _ => hgood
  exact @along_iff_prefixes_history σ ε step ok (fun _ => inv) (fun _ => good) hinv' hgood' s t []
    es hi hg hrun

/-- Forward simulation by a total abstract step: while the abstract run
meets the guard, the concrete run does not stop and stays related to it. -/
theorem forward_simulation {τ : Type*} {absStep : τ → ε → τ} {absOk : τ → ε → Prop}
    {rel : σ → τ → Prop}
    (hstep : ∀ s a e, rel s a → absOk a e → ∃ s', step s e = some s' ∧ rel s' (absStep a e))
    {s : σ} {a : τ} {es : List ε} (hrel : rel s a)
    (hok : Along (fun a e => some (absStep a e)) absOk a es) :
    ∃ t, run step s es = some t ∧ rel t (es.foldl absStep a) := by
  induction es generalizing s a with
  | nil => exact ⟨s, rfl, hrel⟩
  | cons e es ih =>
    obtain ⟨s', he, hrel'⟩ := hstep s a e hrel hok.1
    obtain ⟨t, ht, hrelt⟩ := ih hrel' (hok.2 _ rfl)
    exact ⟨t, run_cons_eq_some.mpr ⟨s', he, ht⟩, hrelt⟩

/-- What one part of the state goes through in a run: the labels that are for
it, in order. -/
theorem run_filterMap {τ ε' : Type*} {partStep : τ → ε' → Option τ} {part : σ → τ}
    {label : ε → Option ε'}
    (hother : ∀ s e s', label e = none → step s e = some s' → part s' = part s)
    (hown : ∀ s e s' e', label e = some e' → step s e = some s' →
      partStep (part s) e' = some (part s')) {s t : σ} {es : List ε}
    (hrun : run step s es = some t) :
    run partStep (part s) (es.filterMap label) = some (part t) := by
  induction es generalizing s with
  | nil =>
    obtain rfl := Option.some.inj hrun
    rfl
  | cons e es ih =>
    obtain ⟨s', he, hes⟩ := run_cons_eq_some.mp hrun
    cases hlabel : label e with
    | none =>
      rw [List.filterMap_cons_none hlabel, ← hother s e s' hlabel he]
      exact ih hes
    | some e' =>
      rw [List.filterMap_cons_some hlabel, run_cons_eq_some]
      exact ⟨part s', hown s e s' e' hlabel he, ih hes⟩

end Run
