import Mathlib.Tactic.Common

set_option autoImplicit false

/- Loops over a list whose steps may fail. -/
namespace QbbNet

variable {α β κ σ : Type}

theorem mapM_eq_map {f : α → Option β} {g : α → β} :
    ∀ {xs : List α}, (∀ x ∈ xs, f x = some (g x)) → xs.mapM f = some (xs.map g)
  | [], _ => rfl
  | x :: xs, total => by
      rw [List.mapM_cons, total x List.mem_cons_self,
        mapM_eq_map fun z mem => total z (List.mem_cons_of_mem x mem)]
      rfl

theorem mapM_eq_filterMap {f : α → Option β} :
    ∀ {xs : List α}, (∀ x ∈ xs, ∃ y, f x = some y) → xs.mapM f = some (xs.filterMap f)
  | [], _ => rfl
  | x :: xs, total => by
      obtain ⟨y, found⟩ := total x List.mem_cons_self
      have rest := mapM_eq_filterMap fun z mem => total z (List.mem_cons_of_mem x mem)
      rw [List.mapM_cons, found, rest, List.filterMap_cons_some found]
      rfl

/-- What each step keeps of its element is kept of the list. -/
theorem mapM_keeps {f : α → Option β} (was : α → κ) (is : β → κ)
    (step : ∀ x y, f x = some y → is y = was x) :
    ∀ {xs : List α} {ys : List β}, xs.mapM f = some ys → ys.map is = xs.map was
  | [], ys, done => by
      cases done
      rfl
  | x :: xs, ys, done => by
      rw [List.mapM_cons] at done
      obtain ⟨y, first, done⟩ := Option.bind_eq_some_iff.mp done
      obtain ⟨rest, later, same⟩ := Option.bind_eq_some_iff.mp done
      rw [← Option.some.inj same, List.map_cons, List.map_cons, step x y first,
        mapM_keeps was is step later]

/-- What each step keeps of the state is kept by the loop. -/
theorem foldlM_keeps {f : σ → α → Option σ} (kept : σ → κ)
    (step : ∀ s x s', f s x = some s' → kept s' = kept s) :
    ∀ {xs : List α} {s s' : σ}, xs.foldlM f s = some s' → kept s' = kept s
  | [], _, _, done => by rw [← Option.some.inj done]
  | x :: xs, s, s', done => by
      rw [List.foldlM_cons] at done
      obtain ⟨next, first, rest⟩ := Option.bind_eq_some_iff.mp done
      rw [foldlM_keeps kept step rest, step s x next first]

end QbbNet
