import TenantPower.Weekdays

/-!
# Proofs: removing duplicates preserving order

`dedupFrom seen l` keeps each value of `l` at its first occurrence outside `seen`. Everything the
weekday proofs need follows from three facts: what it keeps (`mem_dedupFrom`), that it keeps each
value once (`nodup_dedupFrom`), and that it can be applied before or after a map
(`dedupFrom_map_dedupFrom`), which is what makes shifting a weekday spec compose.
-/

namespace TenantPower

variable {α β : Type} [DecidableEq α] [DecidableEq β]

@[simp] theorem mem_dedupFrom {x : α} : ∀ {seen l : List α}, x ∈ dedupFrom seen l ↔ x ∈ l ∧ x ∉ seen
  | _, [] => by simp [dedupFrom]
  | seen, n :: ns => by
    by_cases hn : n ∈ seen
    · simp only [dedupFrom, hn, if_true, mem_dedupFrom, List.mem_cons]
      constructor
      · exact fun h => ⟨Or.inr h.1, h.2⟩
      · rintro ⟨rfl | h, hx⟩
        · exact absurd hn hx
        · exact ⟨h, hx⟩
    · simp only [dedupFrom, hn, if_false, List.mem_cons, mem_dedupFrom]
      constructor
      · rintro (rfl | ⟨h, hx⟩)
        · exact ⟨Or.inl rfl, hn⟩
        · exact ⟨Or.inr h, fun hs => hx (Or.inr hs)⟩
      · rintro ⟨rfl | h, hx⟩
        · exact Or.inl rfl
        · by_cases hxn : x = n
          · exact Or.inl hxn
          · exact Or.inr ⟨h, fun hs => hs.elim hxn hx⟩

@[simp] theorem mem_dedup {x : α} {l : List α} : x ∈ dedup l ↔ x ∈ l := by
  simp [dedup]

theorem nodup_dedupFrom : ∀ {seen l : List α}, (dedupFrom seen l).Nodup
  | _, [] => List.nodup_nil
  | seen, n :: ns => by
    unfold dedupFrom
    split_ifs
    · exact nodup_dedupFrom
    · exact List.nodup_cons.2 ⟨by simp, nodup_dedupFrom⟩

theorem nodup_dedup {l : List α} : (dedup l).Nodup := nodup_dedupFrom

/-- A list without duplicates and disjoint from `seen` is kept whole. -/
theorem dedupFrom_eq_self : ∀ {seen l : List α}, l.Nodup → (∀ x ∈ l, x ∉ seen) → dedupFrom seen l = l
  | _, [], _, _ => rfl
  | seen, n :: ns, hl, hs => by
    obtain ⟨hn, hns⟩ := List.nodup_cons.1 hl
    have hs' : ∀ x ∈ ns, x ∉ n :: seen := by
      intro x hx hx'
      rcases List.mem_cons.1 hx' with rfl | hx'
      · exact hn hx
      · exact hs x (List.mem_cons_of_mem _ hx) hx'
    rw [dedupFrom, if_neg (hs n (List.mem_cons_self n ns)), dedupFrom_eq_self hns hs']

theorem dedup_eq_self {l : List α} (hl : l.Nodup) : dedup l = l :=
  dedupFrom_eq_self hl fun _ _ h => List.not_mem_nil _ h

theorem dedup_dedup {l : List α} : dedup (dedup l) = dedup l := dedup_eq_self nodup_dedup

theorem dedup_ne_nil {l : List α} (h : l ≠ []) : dedup l ≠ [] := by
  obtain ⟨x, hx⟩ := List.exists_mem_of_ne_nil l h
  exact List.ne_nil_of_mem (mem_dedup.2 hx)

/-- Mapping after removing duplicates, then removing duplicates again, is removing them once
after the map, as long as what was seen before maps into what is seen after. -/
theorem dedupFrom_map_dedupFrom (f : α → β) :
    ∀ {seen : List α} {seen' : List β} {l : List α}, (∀ x ∈ seen, f x ∈ seen') →
      dedupFrom seen' ((dedupFrom seen l).map f) = dedupFrom seen' (l.map f)
  | _, _, [], _ => rfl
  | seen, seen', n :: ns, h => by
    by_cases hn : n ∈ seen
    · rw [dedupFrom, if_pos hn, dedupFrom_map_dedupFrom f h, List.map_cons, dedupFrom,
        if_pos (h n hn)]
    · have h' : ∀ x ∈ n :: seen, f x ∈ f n :: seen' := fun x hx =>
        (List.mem_cons.1 hx).elim (fun e => e ▸ List.mem_cons_self _ _)
          (fun hx => List.mem_cons_of_mem _ (h x hx))
      rw [dedupFrom, if_neg hn, List.map_cons, List.map_cons, dedupFrom, dedupFrom]
      by_cases hfn : f n ∈ seen'
      · rw [if_pos hfn, if_pos hfn]
        exact dedupFrom_map_dedupFrom f fun x hx =>
          (List.mem_cons.1 hx).elim (fun e => e ▸ hfn) (fun hx => h x hx)
      · rw [if_neg hfn, if_neg hfn, dedupFrom_map_dedupFrom f h']

theorem dedup_map_dedup (f : α → β) (l : List α) : dedup ((dedup l).map f) = dedup (l.map f) :=
  dedupFrom_map_dedupFrom f fun _ h => absurd h (List.not_mem_nil _)

end TenantPower
