import Mathlib

/-! Finite runs of a partial step function over a list of events. A missing
step ends the run without a result; nothing is totalized. -/
namespace Execution

variable {S E : Type*}

def run (step : S → E → Option S) : S → List E → Option S
  | s, [] => some s
  | s, e :: es => (step s e).bind (fun t => run step t es)

@[simp] theorem run_nil (step : S → E → Option S) (s : S) : run step s [] = some s := rfl

theorem run_cons (step : S → E → Option S) (s : S) (e : E) (es : List E) :
    run step s (e :: es) = (step s e).bind (fun t => run step t es) := rfl

theorem run_append (step : S → E → Option S) (s : S) (es fs : List E) :
    run step s (es ++ fs) = (run step s es).bind (fun t => run step t fs) := by
  induction es generalizing s with
  | nil => rfl
  | cons e es ih =>
    simp only [List.cons_append, run_cons, Option.bind_assoc]
    exact Option.bind_congr (fun t _ => ih t)

theorem run_concat {step : S → E → Option S} {s u : S} {es : List E} {e : E}
    (h : run step s (es ++ [e]) = some u) :
    ∃ t, run step s es = some t ∧ step t e = some u := by
  rw [run_append, Option.bind_eq_some_iff] at h
  obtain ⟨t, ht, hu⟩ := h
  exact ⟨t, ht, by simpa [run_cons, Option.bind_eq_some_iff] using hu⟩

theorem run_extend {step : S → E → Option S} {s t u : S} {es : List E} {e : E}
    (before : run step s es = some t) (stepped : step t e = some u) :
    run step s (es ++ [e]) = some u := by
  rw [run_append, before, Option.bind_some, run_cons, stepped]
  rfl

/-- A run of a part of a system, of which each step is one of the whole. -/
theorem run_embed {T F : Type*} {step : S → E → Option S} {whole : T → F → Option T} {f : S → T}
    {g : E → F} {s u : S} {es : List E}
    (each : ∀ e ∈ es, ∀ s t, step s e = some t → whole (f s) (g e) = some (f t))
    (ran : run step s es = some u) : run whole (f s) (es.map g) = some (f u) := by
  induction es generalizing s with
  | nil =>
    cases Option.some.inj ran
    rfl
  | cons e es ih =>
    rw [run_cons, Option.bind_eq_some_iff] at ran
    obtain ⟨t, first, rest⟩ := ran
    rw [List.map_cons, run_cons, each e List.mem_cons_self s t first, Option.bind_some]
    exact ih (fun e' later => each e' (List.mem_cons_of_mem e later)) rest

/-- Every step of the run, taken from the state before it, meets a condition. -/
def Along (step : S → E → Option S) (P : S → E → Prop) : S → List E → Prop
  | _, [] => True
  | s, e :: es => P s e ∧ ∀ t, step s e = some t → Along step P t es

theorem along_append {step : S → E → Option S} {P : S → E → Prop} {s t : S} {es fs : List E}
    (run_es : run step s es = some t) :
    Along step P s (es ++ fs) ↔ Along step P s es ∧ Along step P t fs := by
  induction es generalizing s with
  | nil =>
    cases Option.some.inj run_es
    simp [Along]
  | cons e es ih =>
    simp only [run_cons, Option.bind_eq_some_iff] at run_es
    obtain ⟨u, hu, rest⟩ := run_es
    simp only [List.cons_append, Along, hu, Option.some.injEq, forall_eq', ih rest, and_assoc]

theorem along_concat {step : S → E → Option S} {P : S → E → Prop} {s t : S} {es : List E} {e : E}
    (run_es : run step s es = some t) (h : Along step P s (es ++ [e])) :
    Along step P s es ∧ P t e := by
  have split := (along_append run_es).mp h
  exact ⟨split.1, split.2.1⟩

/-- An invariant indexed by the events so far, preserved by each step that meets
the condition, holds at the end of every run whose steps all meet it. -/
theorem history_invariant {step : S → E → Option S} {P : S → E → Prop} {s : S}
    (I : List E → S → Prop) (start : I [] s)
    (preserved : ∀ es t e u, I es t → P t e → step t e = some u → I (es ++ [e]) u)
    {es : List E} {t : S} (safe : Along step P s es) (h : run step s es = some t) : I es t := by
  induction es using List.reverseRecOn generalizing t with
  | nil => exact Option.some.inj h ▸ start
  | append_singleton es e ih =>
    obtain ⟨u, hu, last⟩ := run_concat h
    obtain ⟨before, now⟩ := along_concat hu safe
    exact preserved es u e t (ih before hu) now last

theorem along_true (step : S → E → Option S) (s : S) (es : List E) :
    Along step (fun _ _ => True) s es := by
  induction es generalizing s with
  | nil => trivial
  | cons e es ih => exact ⟨trivial, fun t _ => ih t⟩

theorem along_of_mem {step : S → E → Option S} {P : S → E → Prop} {es : List E}
    (each : ∀ e ∈ es, ∀ s, P s e) (s : S) : Along step P s es := by
  induction es generalizing s with
  | nil => trivial
  | cons e es ih =>
    exact ⟨each e List.mem_cons_self s,
      fun t _ => ih (fun e' member => each e' (List.mem_cons_of_mem _ member)) t⟩

theorem state_invariant {step : S → E → Option S} {P : S → E → Prop} {s : S} (I : S → Prop)
    (start : I s) (preserved : ∀ t e u, I t → P t e → step t e = some u → I u)
    {es : List E} {t : S} (safe : Along step P s es) (h : run step s es = some t) : I t :=
  history_invariant (fun _ => I) start (fun _ => preserved) safe h

/-- Where each step keeps a property exactly when it meets the condition, and nothing restores
the property, the whole run keeps it exactly when every step meets the condition. -/
theorem along_iff {step : S → E → Option S} {P : S → E → Prop} {I : S → Prop}
    (exact_step : ∀ s e t, step s e = some t → (I t ↔ I s ∧ P s e))
    {es : List E} {s t : S} (h : run step s es = some t) : I t ↔ I s ∧ Along step P s es := by
  induction es generalizing s with
  | nil =>
    cases Option.some.inj h
    simp [Along]
  | cons e es ih =>
    simp only [run_cons, Option.bind_eq_some_iff] at h
    obtain ⟨u, hu, rest⟩ := h
    simp only [ih rest, exact_step s e u hu, Along, hu, Option.some.injEq, forall_eq', and_assoc]

end Execution
