import Mathlib.Data.List.Induction
import Mathlib.Data.List.Nodup
import Mathlib.Logic.Function.Basic

/-!
# A list cut into one block for each party

Parties take turns at extending a list, and nobody comes back once the next
party has begun.  The list is then the concatenation, in the order of the turns,
of one contiguous block for each party.
-/

namespace WebTransport.Support

variable {ι β : Type*}

/-- `total` consists of the blocks of the parties in `order`, one after the
other, and nobody else has a block. -/
structure Blocks (total : List β) (order : List ι) (block : ι → List β) :
    Prop where
  nodup : order.Nodup
  total_eq : total = order.flatMap block
  outside : ∀ i, i ∉ order → block i = []

namespace Blocks

variable {total new : List β} {order : List ι} {block : ι → List β} {i j : ι}

theorem nil : Blocks ([] : List β) ([] : List ι) fun _ => [] where
  nodup := List.nodup_nil
  total_eq := rfl
  outside _ _ := rfl

theorem enter (h : Blocks total order block) (hi : i ∉ order) :
    Blocks total (order ++ [i]) block where
  nodup := by
    refine List.nodup_append.mpr ⟨h.nodup, List.nodup_singleton i, ?_⟩
    rintro a ha b hb rfl
    exact hi (List.mem_singleton.mp hb ▸ ha)
  total_eq := by
    rw [List.flatMap_append, List.flatMap_singleton, h.outside i hi,
      List.append_nil, ← h.total_eq]
  outside j hj := h.outside j fun hmem => hj (List.mem_append_left _ hmem)

theorem extend [DecidableEq ι] (h : Blocks total order block)
    (hi : order.getLast? = some i) :
    Blocks (total ++ new) order (Function.update block i (block i ++ new)) := by
  obtain ⟨before, rfl⟩ := List.getLast?_eq_some_iff.mp hi
  have hnot : i ∉ before := by
    have hnodup := List.nodup_append.mp h.nodup
    exact fun hmem => hnodup.2.2 i hmem i (List.mem_singleton_self i) rfl
  have hsame : before.flatMap (Function.update block i (block i ++ new)) =
      before.flatMap block := by
    refine List.flatMap_congr fun j hj => ?_
    have hji : j ≠ i := by
      rintro rfl
      exact hnot hj
    rw [Function.update_of_ne hji]
  refine ⟨h.nodup, ?_, fun j hj => ?_⟩
  · rw [List.flatMap_append, List.flatMap_singleton, hsame,
      Function.update_self, h.total_eq, List.flatMap_append,
      List.flatMap_singleton, List.append_assoc]
  · have hji : j ≠ i := by
      rintro rfl
      exact hj (by simp)
    rw [Function.update_of_ne hji]
    exact h.outside j hj

end Blocks

theorem flatMap_filter_of_eq_nil {order : List ι} {block : ι → List β}
    {p : ι → Bool} (h : ∀ i ∈ order, p i = false → block i = []) :
    (order.filter p).flatMap block = order.flatMap block := by
  induction order with
  | nil => rfl
  | cons i rest ih =>
      have hrest := ih fun j hj => h j (List.mem_cons_of_mem i hj)
      cases hp : p i with
      | true => simp [hp, hrest]
      | false => simp [hp, hrest, h i List.mem_cons_self hp]

theorem flatMap_range_getElem? {α : Type*} (l : List α) (f : α → List β) :
    ((List.range l.length).flatMap fun i => l[i]?.elim [] f) = l.flatMap f := by
  induction l using List.reverseRecOn with
  | nil => rfl
  | append_singleton l a ih =>
      have hbefore : ((List.range l.length).flatMap
          fun i => (l ++ [a])[i]?.elim [] f) = l.flatMap f := by
        rw [← ih]
        refine List.flatMap_congr fun i hi => ?_
        rw [List.getElem?_append_left (List.mem_range.mp hi)]
      rw [List.length_append, List.length_singleton, List.range_succ,
        List.flatMap_append, hbefore]
      simp

/-- The beginning of a concatenation of blocks consists of whole blocks and of a
part of the next one. -/
theorem exists_blocks_of_isPrefix {α : Type*} {f : α → List β} {p : List β}
    {l : List α} (h : p <+: l.flatMap f) :
    ∃ kept lost, l = kept ++ lost ∧ (p = kept.flatMap f ∨
      ∃ a n, lost.head? = some a ∧ 0 < n ∧ n < (f a).length ∧
        p = kept.flatMap f ++ (f a).take n) := by
  induction l generalizing p with
  | nil => exact ⟨[], [], rfl, Or.inl (List.prefix_nil.mp h)⟩
  | cons a rest ih =>
      rw [List.flatMap_cons] at h
      rcases Nat.lt_or_ge p.length (f a).length with hlt | hge
      · have hp : p <+: f a :=
          List.prefix_of_prefix_length_le h (List.prefix_append _ _) (Nat.le_of_lt hlt)
        refine ⟨[], a :: rest, rfl, ?_⟩
        rcases Nat.eq_zero_or_pos p.length with hnil | hpos
        · exact Or.inl (List.eq_nil_of_length_eq_zero hnil)
        · exact Or.inr ⟨a, p.length, rfl, hpos, hlt, List.prefix_iff_eq_take.mp hp⟩
      · obtain ⟨q, rfl⟩ : f a <+: p :=
          List.prefix_of_prefix_length_le (List.prefix_append _ _) h hge
        obtain ⟨kept, lost, rfl, hq⟩ := ih ((List.prefix_append_right_inj _).mp h)
        refine ⟨a :: kept, lost, rfl, ?_⟩
        rcases hq with rfl | ⟨b, n, hb, hpos, hcut, rfl⟩
        · exact Or.inl rfl
        · exact Or.inr ⟨b, n, hb, hpos, hcut, by simp⟩

end WebTransport.Support
