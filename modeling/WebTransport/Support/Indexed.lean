import Mathlib.Algebra.Order.Ring.Nat
import Mathlib.Data.List.Basic

/-!
# Facts about every entry of a list

A list of processes changes in two ways: one entry is replaced, or an entry is
added at the end.  The rules below carry a fact about all entries, which may
depend on the position, over such a change.
-/

namespace WebTransport.Support

variable {α : Type*} {l : List α} {P : ℕ → α → Prop} {i : ℕ} {a b : α}

/-- Replace an entry: the fact has to be shown for the new entry and kept for
the others. -/
theorem forall_getElem?_set (ha : P i a)
    (h : ∀ j b, j ≠ i → l[j]? = some b → P j b) :
    ∀ j b, (l.set i a)[j]? = some b → P j b := by
  intro j b hj
  by_cases hji : j = i
  · subst hji
    rw [List.getElem?_set_self'] at hj
    cases hl : l[j]? with
    | none => simp [hl] at hj
    | some c =>
        obtain rfl : a = b := by simpa [hl] using hj
        exact ha
  · rw [List.getElem?_set_ne (Ne.symm hji)] at hj
    exact h j b hji hj

theorem forall_getElem?_concat (ha : P l.length a)
    (h : ∀ j b, l[j]? = some b → P j b) :
    ∀ j b, (l ++ [a])[j]? = some b → P j b := by
  intro j b hj
  rcases Nat.lt_trichotomy j l.length with hlt | heq | hgt
  · rw [List.getElem?_append_left hlt] at hj
    exact h j b hj
  · subst heq
    obtain rfl : a = b := by simpa using hj
    exact ha
  · rw [List.getElem?_eq_none (by simp; omega)] at hj
    cases hj

/-- A measure of all entries falls with the measure of one. -/
theorem sum_map_set_lt {f : α → ℕ} (h : l[i]? = some b) (hf : f a < f b) :
    ((l.set i a).map f).sum < (l.map f).sum := by
  induction l generalizing i with
  | nil => cases h
  | cons c rest ih =>
      cases i with
      | zero =>
          obtain rfl : c = b := by simpa using h
          simpa using hf
      | succ i =>
          have hrest : ((rest.set i a).map f).sum < (rest.map f).sum :=
            ih (by simpa using h)
          simpa using hrest

theorem sum_mapIdx_le {f g : ℕ → α → ℕ}
    (h : ∀ j c, l[j]? = some c → g j c ≤ f j c) :
    (l.mapIdx g).sum ≤ (l.mapIdx f).sum := by
  induction l generalizing f g with
  | nil => rfl
  | cons c rest ih =>
      have hrest := ih (f := fun j => f (j + 1)) (g := fun j => g (j + 1))
        fun j c hj => h (j + 1) c (by simpa using hj)
      have hfirst := h 0 c rfl
      simp only [List.mapIdx_cons, List.sum_cons]
      omega

theorem sum_mapIdx_set_lt {f g : ℕ → α → ℕ} (h : l[i]? = some b)
    (hlt : g i a < f i b)
    (hle : ∀ j c, j ≠ i → l[j]? = some c → g j c ≤ f j c) :
    ((l.set i a).mapIdx g).sum < (l.mapIdx f).sum := by
  induction l generalizing i f g with
  | nil => cases h
  | cons c rest ih =>
      cases i with
      | zero =>
          obtain rfl : c = b := by simpa using h
          have hrest := sum_mapIdx_le (l := rest) (f := fun j => f (j + 1))
            (g := fun j => g (j + 1))
            fun j c hj => hle (j + 1) c (by simp) (by simpa using hj)
          simp only [List.set_cons_zero, List.mapIdx_cons, List.sum_cons]
          omega
      | succ i =>
          have hrest := ih (f := fun j => f (j + 1)) (g := fun j => g (j + 1))
            (by simpa using h) hlt
            fun j c hj hc => hle (j + 1) c (by simpa using hj) (by simpa using hc)
          have hfirst := hle 0 c (by simp) rfl
          simp only [List.set_cons_succ, List.mapIdx_cons, List.sum_cons]
          omega

/-- What is read off the entries of a list grows by what is read off a new entry, if
nothing was read off the old one. -/
theorem filterMap_set_perm {β : Type*} {f : α → Option β} (h : l[i]? = some b)
    (hb : f b = none) :
    ((l.set i a).filterMap f).Perm (l.filterMap f ++ (f a).toList) := by
  induction l generalizing i with
  | nil => cases h
  | cons c rest ih =>
      cases i with
      | zero =>
          obtain rfl : c = b := by simpa using h
          rw [List.set_cons_zero, List.filterMap_cons_none hb]
          cases ha : f a with
          | none =>
              rw [List.filterMap_cons_none ha]
              simp
          | some x =>
              rw [List.filterMap_cons_some ha]
              exact (List.perm_append_singleton x _).symm
      | succ i =>
          have hrest := ih (by simpa using h)
          rw [List.set_cons_succ]
          cases hc : f c with
          | none =>
              rw [List.filterMap_cons_none hc, List.filterMap_cons_none hc]
              exact hrest
          | some x =>
              rw [List.filterMap_cons_some hc, List.filterMap_cons_some hc]
              exact hrest.cons x

theorem filterMap_toList {β : Type*} (f : α → Option β) (o : Option α) :
    o.toList.filterMap f = (o.bind f).toList := by
  cases o with
  | none => rfl
  | some a =>
      simp only [Option.toList_some, Option.bind_some]
      cases h : f a <;> simp [h]

theorem getElem?_set_of_eq_some (h : l[i]? = some b) :
    (l.set i a)[i]? = some a := by
  simp [List.getElem?_set_self', h]

theorem getElem?_set_of_ne {j : ℕ} (hji : j ≠ i) (h : l[i]? = some b) :
    (l.set j a)[i]? = some b :=
  (List.getElem?_set_ne hji).trans h

theorem map_set_of_eq {β : Type*} {f : α → β} (h : l[i]? = some b) (hf : f a = f b) :
    (l.set i a).map f = l.map f := by
  rw [List.map_set, hf]
  apply List.ext_getElem?
  intro j
  by_cases hij : i = j
  · subst hij
    simp [List.getElem?_set_self', h]
  · rw [List.getElem?_set_ne hij]

theorem getElem?_concat_of_eq_some (h : l[i]? = some b) :
    (l ++ [a])[i]? = some b := by
  have hlt : i < l.length := (List.getElem?_eq_some_iff.mp h).1
  rw [List.getElem?_append_left hlt, h]

theorem lt_length_of_getElem? (h : l[i]? = some b) : i < l.length :=
  (List.getElem?_eq_some_iff.mp h).1

theorem eq_of_key_eq {β : Type*} {f : α → β} {j : ℕ} (h : (l.map f).Nodup)
    (hi : l[i]? = some a) (hj : l[j]? = some b) (hf : f a = f b) : i = j := by
  have hlt : i < (l.map f).length := by
    rw [List.length_map]
    exact lt_length_of_getElem? hi
  apply (List.getElem?_inj hlt h).mp
  rw [List.getElem?_map, List.getElem?_map, hi, hj, Option.map_some, Option.map_some, hf]

theorem getElem?_of_isPrefix {l' : List α} (h : l <+: l') (hi : l[i]? = some b) :
    l'[i]? = some b := by
  obtain ⟨rest, rfl⟩ := h
  rw [List.getElem?_append_left (lt_length_of_getElem? hi), hi]

end WebTransport.Support
