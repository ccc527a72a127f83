import Mathlib.Data.List.Perm.Basic
import ResourceCompiler.Proofs.Success

/-!
# Lists that match in some order

`Matched R xs ys`: the elements of `xs` and those of `ys` are related in pairs, whatever their order.
-/

namespace ResourceCompiler

/-- Every element has its own partner in the other list. -/
def Matched {α β : Type} (R : α → β → Prop) (xs : List α) (ys : List β) : Prop :=
  ∃ zs, List.Forall₂ R xs zs ∧ zs.Perm ys

/-- A list that has the images of another one in some order is a list of images itself. -/
theorem exists_map_of_perm {α β : Type} {f : α → β} {xs : List α} {ys : List β} (h : ys.Perm (xs.map f)) :
    ∃ zs : List α, ys = zs.map f ∧ zs.Perm xs :=
  (congrFun (congrFun (List.eq_map_comp_perm f) ys) xs).mpr h

theorem isSome_eq_of_rel {α β : Type} {R : α → β → Prop} {x : Option α} {y : Option β} (h : Option.Rel R x y) :
    x.isSome = y.isSome := by
  cases h <;> rfl

namespace Matched

variable {α β γ δ : Type} {R : α → β → Prop} {S : γ → δ → Prop} {xs xs' : List α} {ys ys' : List β}

theorem of_forall₂ (h : List.Forall₂ R xs ys) : Matched R xs ys := ⟨ys, h, .refl ys⟩

theorem of_perm {T : α → α → Prop} (hr : ∀ x, T x x) (h : xs.Perm xs') : Matched T xs xs' :=
  ⟨xs, List.forall₂_same.2 fun x _ => hr x, h⟩

theorem imp {R' : α → β → Prop} (hr : ∀ x y, R x y → R' x y) (h : Matched R xs ys) : Matched R' xs ys := by
  obtain ⟨zs, hz, hp⟩ := h
  exact ⟨zs, hz.imp hr, hp⟩

theorem of_rel {x : Option α} {y : Option β} (h : Option.Rel R x y) : Matched R x.toList y.toList := by
  cases h with
  | none => exact of_forall₂ .nil
  | some h => exact of_forall₂ (.cons h .nil)

theorem nil_right (h : Matched R [] ys) : ys = [] := by
  obtain ⟨zs, hz, hp⟩ := h
  rw [List.forall₂_nil_left_iff] at hz
  exact (hz ▸ hp).nil_eq.symm

theorem length_eq (h : Matched R xs ys) : xs.length = ys.length := by
  obtain ⟨zs, hz, hp⟩ := h
  rw [hz.length_eq, hp.length_eq]

theorem append (h : Matched R xs ys) (h' : Matched R xs' ys') : Matched R (xs ++ xs') (ys ++ ys') := by
  obtain ⟨zs, hz, hp⟩ := h
  obtain ⟨zs', hz', hp'⟩ := h'
  exact ⟨zs ++ zs', List.rel_append hz hz', hp.append hp'⟩

theorem exists_left (h : Matched R xs ys) {y : β} (hy : y ∈ ys) : ∃ x ∈ xs, R x y := by
  obtain ⟨zs, hz, hp⟩ := h
  exact exists_of_mem_right hz (hp.mem_iff.2 hy)

theorem filter {p : α → Bool} {q : β → Bool} (h : Matched R xs ys) (hpq : ∀ x y, R x y → p x = q y) :
    Matched R (xs.filter p) (ys.filter q) := by
  obtain ⟨zs, hz, hp⟩ := h
  refine ⟨zs.filter q, ?_, hp.filter q⟩
  exact List.rel_filter (fun x y hr => Bool.eq_iff_iff.1 (hpq x y hr)) hz

theorem map {f : α → γ} {g : β → δ} (h : Matched R xs ys) (hfg : ∀ x y, R x y → S (f x) (g y)) :
    Matched S (xs.map f) (ys.map g) := by
  obtain ⟨zs, hz, hp⟩ := h
  exact ⟨zs.map g, List.rel_map hfg hz, hp.map g⟩

/-- What is the same for partners is the same for the lists, up to the order. -/
theorem map_perm {f : α → γ} {g : β → γ} (h : Matched R xs ys) (hfg : ∀ x y, R x y → f x = g y) :
    (xs.map f).Perm (ys.map g) := by
  obtain ⟨zs, hz, hp⟩ := h.map (S := Eq) hfg
  rw [List.forall₂_eq_eq_eq] at hz
  exact hz ▸ hp

theorem flatMap {f : α → List γ} {g : β → List δ} (h : Matched R xs ys)
    (hfg : ∀ x y, R x y → Matched S (f x) (g y)) : Matched S (xs.flatMap f) (ys.flatMap g) := by
  obtain ⟨zs, hz, hp⟩ := h
  have pairs : Matched S (xs.flatMap f) (zs.flatMap g) := by
    clear hp
    induction hz with
    | nil => exact of_forall₂ .nil
    | cons hr _ ih =>
      rw [List.flatMap_cons, List.flatMap_cons]
      exact (hfg _ _ hr).append ih
  obtain ⟨ws, hw, hq⟩ := pairs
  exact ⟨ws, hw, hq.trans (hp.flatMap_right g)⟩

theorem trans {T : α → α → Prop} {xs ys zs : List α} (ht : ∀ x y z, T x y → T y z → T x z)
    (h : Matched T xs ys) (h' : Matched T ys zs) : Matched T xs zs := by
  obtain ⟨us, hu, hp⟩ := h
  obtain ⟨vs, hv, hq⟩ := h'
  obtain ⟨ws, hw, hp'⟩ := List.perm_comp_forall₂ hp hv
  refine ⟨ws, ?_, hp'.trans hq⟩
  clear hp hp'
  induction hu generalizing ws with
  | nil =>
    cases hw
    exact .nil
  | cons hxu _ ih =>
    cases hw with
    | cons huw hw => exact .cons (ht _ _ _ hxu huw) (ih _ hw)

/-- What each element yields, its partner yields alike; so the whole lists do. -/
theorem transfer {T : α → γ → Prop} {V : β → γ → Prop} {U : γ → γ → Prop} {zs : List γ}
    (h : Matched R xs ys) (hz : List.Forall₂ T xs zs)
    (step : ∀ x y z, R x y → T x z → ∃ z', V y z' ∧ U z z') :
    ∃ zs', List.Forall₂ V ys zs' ∧ Matched U zs zs' := by
  obtain ⟨us, hu, hp⟩ := h
  have pairs : ∃ ws, List.Forall₂ V us ws ∧ List.Forall₂ U zs ws := by
    clear hp
    induction hu generalizing zs with
    | nil =>
      cases hz
      exact ⟨[], .nil, .nil⟩
    | cons hr _ ih =>
      cases hz with
      | cons ht hz =>
        obtain ⟨w, hw, hu⟩ := step _ _ _ hr ht
        obtain ⟨ws, hws, hus⟩ := ih hz
        exact ⟨w :: ws, .cons hw hws, .cons hu hus⟩
  obtain ⟨ws, hw, hu⟩ := pairs
  obtain ⟨zs', hz', hq⟩ := List.perm_comp_forall₂ hp.symm hw
  exact ⟨zs', hz', ws, hu, hq.symm⟩

end Matched

end ResourceCompiler
