import GridCatalog.Proofs.Memory
import GridCatalog.Service.Request

/-! What the steps of a task do to the world.

    A task is taken apart at its binds (`Task.bind_inv`). A step that writes at most to the log is
    quiet, and so is everything that is put together from quiet steps. A call of a store in memory
    either fails and leaves the store, or is answered by it (`callOr_inv`); either way it counts. -/

namespace GridCatalog

variable {σ α β : Type}

/-- The stamp of a call by its number. -/
def Surroundings.stamp (u : Surroundings) (n : Nat) : Stamp := ⟨u.freshId n, u.clock n⟩

namespace Task

theorem bind_ok {x : Task σ α} {f : α → Task σ β} {w v : World σ} {a : α} (h : x w = (.ok a, v)) :
    (x >>= f) w = f a v := by
  show (match x w with | (r, v) => ExceptT.bindCont f r v) = _
  rw [h]
  rfl

theorem bind_error {x : Task σ α} {f : α → Task σ β} {w v : World σ} {e : Failure} (h : x w = (.error e, v)) :
    (x >>= f) w = (.error e, v) := by
  show (match x w with | (r, v) => ExceptT.bindCont f r v) = _
  rw [h]
  rfl

theorem bind_inv {x : Task σ α} {f : α → Task σ β} {w w' : World σ} {r : Except Failure β}
    (h : (x >>= f) w = (r, w')) :
    (∃ e, x w = (.error e, w') ∧ r = .error e) ∨ ∃ a v, x w = (.ok a, v) ∧ f a v = (r, w') := by
  rcases hx : x w with ⟨e | a, v⟩
  · rw [bind_error hx] at h
    cases h
    exact Or.inl ⟨e, rfl, rfl⟩
  · rw [bind_ok hx] at h
    exact Or.inr ⟨a, v, rfl, h⟩

theorem pure_inv {a : α} {w w' : World σ} {r : Except Failure α} (h : (pure a : Task σ α) w = (r, w')) :
    r = .ok a ∧ w' = w := by
  cases h
  exact ⟨rfl, rfl⟩

theorem throw_inv {e : Failure} {w w' : World σ} {r : Except Failure α} (h : (throw e : Task σ α) w = (r, w')) :
    r = .error e ∧ w' = w := by
  cases h
  exact ⟨rfl, rfl⟩

theorem map_inv {x : Task σ α} {g : α → β} {w w' : World σ} {r : Except Failure β}
    (h : (x >>= fun a => pure (g a)) w = (r, w')) : ∃ r', x w = (r', w') ∧ r = r'.map g := by
  rcases bind_inv h with ⟨e, hx, rfl⟩ | ⟨a, v, hx, h⟩
  · exact ⟨_, hx, rfl⟩
  · obtain ⟨rfl, rfl⟩ := pure_inv h
    exact ⟨_, hx, rfl⟩

/-- A step that cannot fail has a result and a next world. -/
theorem state_bind_inv {x : StateM (World σ) α} {f : α → StateM (World σ) β} {w w' : World σ} {b : β}
    (h : (x >>= f) w = (b, w')) : ∃ a v, x w = (a, v) ∧ f a v = (b, w') :=
  ⟨(x w).1, (x w).2, rfl, h⟩

theorem lift_inv {x : StateM (World σ) α} {w w' : World σ} {r : Except Failure α}
    (h : (liftM x : Task σ α) w = (r, w')) : ∃ a, r = .ok a ∧ x w = (a, w') := by
  cases h
  exact ⟨(x w).1, rfl, rfl⟩

/-- The task leaves the store alone and does not call it. -/
def Quiet (x : Task σ α) : Prop := ∀ w r w', x w = (r, w') → w'.store = w.store ∧ w'.calls = w.calls

theorem Quiet.pure (a : α) : Quiet (Pure.pure a : Task σ α) := fun _ _ _ h => by
  obtain ⟨-, rfl⟩ := pure_inv h
  exact ⟨rfl, rfl⟩

theorem Quiet.throw (e : Failure) : Quiet (MonadExcept.throw e : Task σ α) := fun _ _ _ h => by
  obtain ⟨-, rfl⟩ := throw_inv h
  exact ⟨rfl, rfl⟩

theorem Quiet.bind {x : Task σ α} {f : α → Task σ β} (hx : Quiet x) (hf : ∀ a, Quiet (f a)) :
    Quiet (x >>= f) := fun w r w' h => by
  rcases bind_inv h with ⟨e, hx', rfl⟩ | ⟨a, v, hx', hf'⟩
  · exact hx w _ w' hx'
  · obtain ⟨hs, hc⟩ := hx w _ v hx'
    obtain ⟨hs', hc'⟩ := hf a v r w' hf'
    exact ⟨hs'.trans hs, hc'.trans hc⟩

theorem Quiet.forM {f : α → Task σ PUnit} (hf : ∀ a, Quiet (f a)) : ∀ l : List α, Quiet (l.forM f)
  | [] => Quiet.pure _
  | a :: l => (hf a).bind fun _ => Quiet.forM hf l

theorem Quiet.mapM {f : α → Task σ β} (hf : ∀ a, Quiet (f a)) : ∀ l : List α, Quiet (l.mapM f)
  | [] => by
    rw [List.mapM_nil]
    exact Quiet.pure _
  | a :: l => by
    rw [List.mapM_cons]
    exact (hf a).bind fun _ => (Quiet.mapM hf l).bind fun _ => Quiet.pure _

end Task

namespace Service

theorem report_quiet (level : LogLevel) (text : String) : Task.Quiet (report level text : Task σ Unit) :=
  fun _ _ _ h => by
    cases h
    exact ⟨rfl, rfl⟩

theorem build_quiet (s : Service σ) (sourceId : String) (range : CellRange) (sheet : Sheet) :
    Task.Quiet (s.build sourceId range sheet) := by
  unfold build
  split
  · split
    · exact .throw _
    · split
      · exact .bind (.forM (fun _ => report_quiet _ _) _) fun _ => .pure _
      · exact .bind (report_quiet _ _) fun _ => .pure _
  · exact .bind (report_quiet _ _) fun _ => .pure _

/-- Reporting on columns does not fail. -/
theorem reportColumns_ok {title : String} {d : Dataset} {w w' : World σ} {r : Except Failure Unit}
    (h : reportColumns title d w = (r, w')) : r = .ok () := by
  unfold reportColumns at h
  generalize d.header = columns at h
  induction columns generalizing w with
  | nil => exact (Task.pure_inv h).1
  | cons c columns ih =>
    rcases Task.bind_inv h with ⟨f, h₁, -⟩ | ⟨_, v, -, h⟩
    · cases h₁
    · exact ih h

theorem report_bind_inv {level : LogLevel} {text : String} {f : Unit → Task σ β} {w w' : World σ}
    {r : Except Failure β} (h : (report level text >>= f) w = (r, w')) :
    ∃ v : World σ, v.store = w.store ∧ v.calls = w.calls ∧ f () v = (r, w') := by
  rcases Task.bind_inv h with ⟨e, h₁, -⟩ | ⟨_, v, h₁, h⟩
  · cases h₁
  · obtain ⟨hv, hn⟩ := report_quiet level text _ _ _ h₁
    exact ⟨v, hv, hn, h⟩

end Service

/-! ### Calls -/

namespace Service
variable {s : Service σ} {w w' : World σ}

theorem callOr_apply (blame : StoreError → Failure) (c : Call α) :
    s.callOr blame c w = ((s.call c w).1.mapError blame, (s.call c w).2) := by
  rcases hc : s.call c w with ⟨e | a, v⟩ <;>
    · simp only [callOr, ExceptT.mk, bind, StateT.bind, hc]
      rfl

theorem callOr_error_inv {blame : StoreError → Failure} {c : Call α} {f : Failure}
    (h : s.callOr blame c w = (.error f, w')) : ∃ e, f = blame e ∧ s.call c w = (.error e, w') := by
  rw [callOr_apply] at h
  rcases hc : s.call c w with ⟨e | a, v⟩ <;> rw [hc] at h <;> cases h
  exact ⟨e, rfl, rfl⟩

theorem callOr_ok_call {blame : StoreError → Failure} {c : Call α} {a : α} (h : s.callOr blame c w = (.ok a, w')) :
    s.call c w = (.ok a, w') := by
  rw [callOr_apply] at h
  rcases hc : s.call c w with ⟨e | b, v⟩ <;> rw [hc] at h <;> cases h
  rfl

/-- A call that succeeds is answered by the store, of whatever kind that is. -/
theorem callOr_ok_inv {blame : StoreError → Failure} {c : Call α} {a : α}
    (h : s.callOr blame c w = (.ok a, w')) :
    s.store.run c (s.stamp w) w.store = (.ok a, w'.store) ∧ w'.calls = w.calls + 1 := by
  have h := callOr_ok_call h
  rw [call] at h
  split at h
  · cases h
  · rcases hrun : s.store.run c (s.stamp w) w.store with ⟨e | b, x⟩ <;> rw [hrun] at h <;> cases h
    exact ⟨rfl, rfl⟩

theorem call_store {c : Call α} {r : Except StoreError α} (h : s.call c w = (r, w')) :
    w'.store = w.store ∨ w'.store = (s.store.run c (s.stamp w) w.store).2 := by
  unfold call at h
  split at h <;> cases h
  · exact Or.inl rfl
  · exact Or.inr rfl

end Service

/-! ### Calls of a store in memory -/

namespace Service
variable {s : Service Memory} {w w' : World Memory}

theorem call_inv (hs : s.store = Memory.store) {c : Call α} {r : Except StoreError α}
    (h : s.call c w = (r, w')) :
    w'.calls = w.calls + 1 ∧ ((∃ e, r = .error e ∧ w'.store = w.store) ∨
      ∃ a, r = .ok a ∧ Memory.run c (s.surroundings.stamp w.calls) w.store = (.ok a, w'.store)) := by
  unfold call at h
  split at h
  · cases h
    exact ⟨rfl, Or.inl ⟨_, rfl, rfl⟩⟩
  · rw [hs] at h
    rcases hrun : Memory.run c (s.stamp w) w.store with ⟨e | a, m⟩
    · have hm := Memory.run_error hrun
      simp only [Memory.store, hrun] at h
      cases h
      exact ⟨rfl, Or.inl ⟨e, rfl, hm⟩⟩
    · simp only [Memory.store, hrun] at h
      cases h
      exact ⟨rfl, Or.inr ⟨a, rfl, hrun⟩⟩

/-- A call that does not fail beforehand is answered by the store. -/
theorem call_of_no_fault (hs : s.store = Memory.store) {c : Call α} (h : s.surroundings.fault w.calls c.kind = none) :
    s.call c w = ((Memory.run c (s.stamp w) w.store).1,
      { w with store := (Memory.run c (s.stamp w) w.store).2, calls := w.calls + 1 }) := by
  rw [call, h, hs]
  rfl

theorem callOr_of_no_fault (hs : s.store = Memory.store) {c : Call α} (h : s.surroundings.fault w.calls c.kind = none)
    (blame : StoreError → Failure) :
    s.callOr blame c w = ((Memory.run c (s.stamp w) w.store).1.mapError blame,
      { w with store := (Memory.run c (s.stamp w) w.store).2, calls := w.calls + 1 }) := by
  rw [callOr_apply, call_of_no_fault hs h]

theorem callOr_inv (hs : s.store = Memory.store) {blame : StoreError → Failure} {c : Call α}
    {r : Except Failure α} (h : s.callOr blame c w = (r, w')) :
    w'.calls = w.calls + 1 ∧ ((∃ e, r = .error (blame e) ∧ w'.store = w.store) ∨
      ∃ a, r = .ok a ∧ Memory.run c (s.surroundings.stamp w.calls) w.store = (.ok a, w'.store)) := by
  rw [callOr_apply] at h
  rcases hc : s.call c w with ⟨r', v⟩
  rw [hc] at h
  cases h
  obtain ⟨hn, ⟨e, rfl, hw⟩ | ⟨a, rfl, hrun⟩⟩ := call_inv hs hc
  · exact ⟨hn, Or.inl ⟨e, rfl, hw⟩⟩
  · exact ⟨hn, Or.inr ⟨a, rfl, hrun⟩⟩

/-- A task that starts with a call fails with it or goes on after it. -/
theorem callOr_bind_inv (hs : s.store = Memory.store) {blame : StoreError → Failure} {c : Call α}
    {f : α → Task Memory β} {r : Except Failure β} (h : (s.callOr blame c >>= f) w = (r, w')) :
    (∃ e, r = .error (blame e) ∧ w'.store = w.store ∧ w'.calls = w.calls + 1) ∨
      ∃ a v, Memory.run c (s.surroundings.stamp w.calls) w.store = (.ok a, v.store) ∧
        v.calls = w.calls + 1 ∧ f a v = (r, w') := by
  rcases Task.bind_inv h with ⟨f, h₁, rfl⟩ | ⟨a, v, h₁, h⟩
  · obtain ⟨hn, ⟨e, he, hw⟩ | ⟨a, he, -⟩⟩ := callOr_inv hs h₁ <;> cases he
    exact Or.inl ⟨e, rfl, hw, hn⟩
  · obtain ⟨hn, ⟨e, he, -⟩ | ⟨_, he, hrun⟩⟩ := callOr_inv hs h₁ <;> cases he
    exact Or.inr ⟨a, v, hrun, hn, h⟩

end Service

end GridCatalog
