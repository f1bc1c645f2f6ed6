import Mathlib.Data.List.Forall2

/-! Lists that are gone through element by element, until one has no result. -/

namespace GridCatalog
variable {α β γ : Type}

theorem mapM_of_isSome {f : α → Option β} (x : β) :
    ∀ {l : List α}, (∀ a ∈ l, (f a).isSome = true) → l.mapM f = some (l.map fun a => (f a).getD x)
  | [], _ => rfl
  | a :: l, h => by
    obtain ⟨b, hb⟩ := Option.isSome_iff_exists.mp (h a List.mem_cons_self)
    rw [List.mapM_cons, hb, mapM_of_isSome x fun a ha => h a (List.mem_cons_of_mem _ ha)]
    simp [hb]

theorem mapM_of_isNone {f : α → Option β} {a : α} (h : f a = none) :
    ∀ {l : List α}, a ∈ l → l.mapM f = none
  | b :: l, ha => by
    rw [List.mapM_cons]
    rcases List.mem_cons.mp ha with rfl | ha
    · rw [h]
      rfl
    · rw [mapM_of_isNone h ha]
      cases f b <;> rfl

theorem mapM_map_some {f : α → β} {g : β → Option γ} {k : α → γ} {l : List α} (h : ∀ a ∈ l, g (f a) = some (k a)) :
    (l.map f).mapM g = some (l.map k) := by
  induction l with
  | nil => rfl
  | cons a l ih =>
    rw [List.map_cons, List.mapM_cons, h a List.mem_cons_self, ih fun a ha => h a (List.mem_cons_of_mem _ ha)]
    rfl

theorem exists_of_mapM {f : α → Option β} :
    ∀ {l : List α} {bs : List β}, l.mapM f = some bs → ∀ b ∈ bs, ∃ a ∈ l, f a = some b
  | [], _, h, b, hb => by
    cases h
    cases hb
  | a :: l, _, h, b, hb => by
    rw [List.mapM_cons] at h
    obtain ⟨b₀, hb₀, h⟩ := Option.bind_eq_some_iff.mp h
    obtain ⟨bs, hbs, h⟩ := Option.bind_eq_some_iff.mp h
    cases h
    rcases List.mem_cons.mp hb with rfl | hb
    · exact ⟨a, List.mem_cons_self, hb₀⟩
    · obtain ⟨a', ha', h⟩ := exists_of_mapM hbs b hb
      exact ⟨a', List.mem_cons_of_mem _ ha', h⟩

theorem length_of_mapM {f : α → Option β} :
    ∀ {l : List α} {bs : List β}, l.mapM f = some bs → bs.length = l.length
  | [], bs, h => by
    cases h
    rfl
  | a :: l, bs, h => by
    rw [List.mapM_cons] at h
    obtain ⟨b, -, h⟩ := Option.bind_eq_some_iff.mp h
    obtain ⟨bs', hbs, h⟩ := Option.bind_eq_some_iff.mp h
    cases h
    rw [List.length_cons, List.length_cons, length_of_mapM hbs]

theorem bind_eq_ok {ε : Type} {x : Except ε α} {f : α → Except ε β} {b : β} :
    x >>= f = .ok b ↔ ∃ a, x = .ok a ∧ f a = .ok b := by
  cases x <;> simp [bind, Except.bind]

theorem mapM_eq_ok {ε : Type} {g : β → Except ε γ} {xs : List β} {ys : List γ} :
    xs.mapM g = .ok ys ↔ List.Forall₂ (fun x y => g x = .ok y) xs ys := by
  induction xs generalizing ys with
  | nil => cases ys <;> simp [pure, Except.pure]
  | cons x xs ih =>
    rw [List.mapM_cons]
    rcases hx : g x with e | y
    · cases ys <;> simp [hx, bind, Except.bind]
    · rcases hxs : xs.mapM g with e | rest <;> rw [hxs] at ih <;>
        cases ys <;> simp [hx, ← ih, bind, Except.bind, pure, Except.pure]

end GridCatalog
