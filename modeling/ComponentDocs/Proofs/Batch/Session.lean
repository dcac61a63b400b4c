import ComponentDocs.Batch.Session
import ComponentDocs.Proofs.Workspace.Changes

/-!
# Runs of jobs

* `Job.exec`: the outcome of a job and the session after it;
* `Job.exec_bind`, `Job.exec_bind_of_ok`, `Job.exec_bind_ok`: one job after another;
* `Job.exec_mapM_cons`: jobs for the members of a list;
* `Job.exec_look`, `Job.exec_change`: jobs that look at the files and change them.
-/

namespace ComponentDocs.Job

variable {α β : Type} {s t : Session}

/-- The outcome of a job and the session after it. -/
def exec (job : Job α) (s : Session) : Except Fault α × Session := StateT.run (ExceptT.run job) s

/-! ## One after another -/

theorem exec_bind (job : Job α) (next : α → Job β) (s : Session) :
    exec (job >>= next) s =
      match exec job s with
      | (.ok a, t) => exec (next a) t
      | (.error fault, t) => (.error fault, t) := by
  unfold exec
  rw [ExceptT.run_bind, StateT.run_bind]
  rcases StateT.run (ExceptT.run job) s with ⟨_ | a, t⟩ <;> rfl

theorem exec_tryCatch (job : Job α) (handle : Fault → Job α) (s : Session) :
    exec (tryCatch job handle) s =
      match exec job s with
      | (.ok a, t) => (.ok a, t)
      | (.error fault, t) => exec (handle fault) t := by
  unfold exec
  simp only [tryCatch, tryCatchThe, MonadExceptOf.tryCatch, ExceptT.tryCatch, ExceptT.run, ExceptT.mk,
    StateT.run_bind]
  rcases StateT.run job s with ⟨_ | a, t⟩ <;> rfl

theorem exec_map (f : α → β) (job : Job α) (s : Session) :
    exec (f <$> job) s = ((exec job s).1.map f, (exec job s).2) := by
  rw [← bind_pure_comp, exec_bind]
  rcases exec job s with ⟨_ | a, t⟩ <;> rfl

theorem exec_bind_of_ok {job : Job α} {a : α} (h : exec job s = (.ok a, t)) (next : α → Job β) :
    exec (job >>= next) s = exec (next a) t := by
  rw [exec_bind, h]

theorem exec_bind_ok {job : Job α} {next : α → Job β} {b : β} (h : exec (job >>= next) s = (.ok b, t)) :
    ∃ a middle, exec job s = (.ok a, middle) ∧ exec (next a) middle = (.ok b, t) := by
  rw [exec_bind] at h
  rcases hjob : exec job s with ⟨fault | a, middle⟩
  · rw [hjob] at h
    exact absurd h (by simp)
  · rw [hjob] at h
    exact ⟨a, middle, rfl, h⟩

theorem exec_mapM_cons {f : α → Job β} {x : α} {xs : List α} {y : β} {ys : List β} {middle : Session}
    (hfirst : exec (f x) s = (.ok y, middle)) (hrest : exec (xs.mapM f) middle = (.ok ys, t)) :
    exec ((x :: xs).mapM f) s = (.ok (y :: ys), t) := by
  rw [List.mapM_cons, exec_bind_of_ok hfirst, exec_bind_of_ok hrest]
  rfl

theorem exec_eq_of_toOption {job : Job α} {a : α} (h : (exec job s).1.toOption = some a) :
    exec job s = (.ok a, (exec job s).2) := by
  rcases hjob : exec job s with ⟨_ | result, t⟩
  · rw [hjob] at h
    exact absurd h (by simp [Except.toOption])
  · rw [hjob] at h
    cases h
    rfl

/-! ## Sessions -/

theorem exec_get (s : Session) : exec (get : Job Session) s = (.ok s, s) := rfl

theorem exec_report (entries : List LogEntry) (s : Session) :
    exec (report entries) s = (.ok (), { s with log := s.log ++ entries }) := rfl

theorem exec_say (line : String) (s : Session) :
    exec (say line) s = (.ok (), { s with printed := s.printed ++ [line] }) := rfl

theorem exec_setRoot (root : String) (s : Session) : exec (setRoot root) s = (.ok (), { s with root := some root }) := rfl

theorem exec_look (f : Workspace → Except Fault α) (s : Session) : exec (look f) s = (f s.workspace, s) := by
  unfold look
  rw [exec_bind, exec_get]
  dsimp only
  cases f s.workspace <;> rfl

theorem exec_change (f : Workspace → Except Fault Workspace) (s : Session) :
    exec (change f) s =
      match f s.workspace with
      | .ok workspace => (.ok (), { s with workspace })
      | .error fault => (.error fault, s) := by
  unfold change
  rw [exec_bind, exec_look]
  cases f s.workspace <;> rfl

theorem exec_look_ok {f : Workspace → Except Fault α} {a : α} (h : exec (look f) s = (.ok a, t)) :
    f s.workspace = .ok a ∧ t = s := by
  rw [exec_look, Prod.mk.injEq] at h
  exact ⟨h.1, h.2.symm⟩

theorem exec_change_ok {f : Workspace → Except Fault Workspace} {u : Unit} (h : exec (change f) s = (.ok u, t)) :
    f s.workspace = .ok t.workspace ∧ t.root = s.root := by
  rw [exec_change] at h
  cases hf : f s.workspace with
  | error fault =>
    rw [hf] at h
    exact absurd h (by simp)
  | ok workspace =>
    rw [hf] at h
    cases h
    exact ⟨rfl, rfl⟩

end ComponentDocs.Job
