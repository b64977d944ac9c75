import TenantPower.Proofs.Text
import TenantPower.Proofs.Dedup

/-!
# Proofs: expanding and shifting weekday specs

`joinInts` writes a list of day numbers as `n,n,n`, and `expandWeekdaysStr` reads such a string
back, its duplicates removed (`expandWeekdaysStr_joinInts`). With that round trip,
`shiftWeekdaysStr` is addition modulo 7 on the expanded days: shifting twice is shifting by the
sum, and shifting by `0` keeps the days of a spec in `0..6`.
-/

namespace TenantPower

/-- A property of every code point of a `join` from one of its separator and its parts. -/
theorem forall_mem_joinWith {P : Char → Prop} {sep : Char} (hsep : P sep) :
    ∀ {parts : List (List Char)}, (∀ p ∈ parts, ∀ c ∈ p, P c) → ∀ c ∈ joinWith sep parts, P c
  | [], _ => by simp [joinWith, List.intercalate]
  | [p], h => by simpa [joinWith, List.intercalate] using h p (List.mem_singleton_self p)
  | p :: q :: ps, h => by
    have ih := forall_mem_joinWith hsep
      (fun r hr => h r (List.mem_cons_of_mem p hr) : ∀ r ∈ q :: ps, ∀ c ∈ r, P c)
    simp only [joinWith, List.intercalate, List.intersperse_cons₂, List.flatten_cons,
      List.mem_append, List.mem_singleton] at ih ⊢
    rintro c (hc | rfl | hc)
    · exact h p (List.mem_cons_self p _) c hc
    · exact hsep
    · exact ih c hc

/-- A join of parts whose first part is not empty is not empty. -/
theorem joinWith_ne_nil {sep : Char} {p : List Char} {ps : List (List Char)} (hp : p ≠ []) :
    joinWith sep (p :: ps) ≠ [] := by
  cases ps <;> simp [joinWith, List.intercalate, hp]

/-- `joinInts` of day numbers: one digit per day, separated by commas. -/
theorem joinInts_weekdays {L : List Int} (hL : ∀ n ∈ L, 0 ≤ n ∧ n < 7) :
    (∀ c ∈ (joinInts L).toList, isPySpace c = false ∧ isSpanishLetter c = false) ∧
      (L ≠ [] → (joinInts L).toList.splitOn ',' = L.map fun n => (toString n).toList) := by
  have hd := fun n (hn : n ∈ L) => toString_weekday (hL n hn).1 (hL n hn).2
  refine ⟨forall_mem_joinWith (by decide) ?_, fun hne => List.splitOn_intercalate _ ',' ?_ ?_⟩
  · simp only [List.mem_map]
    rintro p ⟨n, hn, rfl⟩
    exact (hd n hn).2.2.1
  · simp only [List.mem_map]
    rintro p ⟨n, hn, rfl⟩
    exact (hd n hn).2.1
  · simpa using hne

theorem joinInts_ne_empty {L : List Int} (hne : L ≠ []) (hL : ∀ n ∈ L, 0 ≤ n ∧ n < 7) :
    joinInts L ≠ "" := by
  obtain ⟨n, ns, rfl⟩ := List.exists_cons_of_ne_nil hne
  have hn := toString_weekday (hL n (List.mem_cons_self n ns)).1 (hL n (List.mem_cons_self n ns)).2
  have hj : joinWith ',' ((toString n).toList :: ns.map fun n => (toString n).toList) ≠ [] :=
    joinWith_ne_nil hn.1
  exact fun h => hj (congrArg String.toList h)

/-- `expandWeekdaysStr` reads back the days that `joinInts` writes. -/
theorem expandWeekdaysStr_joinInts {L : List Int} (hne : L ≠ []) (hL : ∀ n ∈ L, 0 ≤ n ∧ n < 7) :
    expandWeekdaysStr (joinInts L) = .ok (dedup L) := by
  obtain ⟨hchars, hsplit⟩ := joinInts_weekdays hL
  have hletter : hasSpanishLetter (joinInts L).toList = false :=
    List.any_eq_false.2 fun c hc => by simp [(hchars c hc).2]
  have hchunk : ∀ n ∈ L, (if strip (toString n).toList = [] then pure []
      else chunkDays (strip (toString n).toList) : Except String (List Int)) = .ok [n] := by
    intro n hn
    obtain ⟨hne', -, hc, hdays⟩ := toString_weekday (hL n hn).1 (hL n hn).2
    simp only [strip_eq_self fun c h => (hc c h).1, hne', if_false, hdays]
  have hext := extendAll_map_ok (f := fun chunk => if strip chunk = [] then pure []
    else chunkDays (strip chunk)) (k := fun n => (toString n).toList) (g := fun n => [n]) hchunk
  simp only [expandWeekdaysStr, joinInts_ne_empty hne hL, if_false, strip_eq_self fun c h =>
    (hchars c h).1, hletter, Bool.false_eq_true, pure_bind, hsplit hne, hext,
    List.flatMap_singleton']
  rfl

/-- `shiftWeekdaysStr` of a spec whose days are `L`. -/
theorem shiftWeekdaysStr_eq {r : String} {L : List Int} (hr : expandWeekdaysStr r = .ok L)
    (k : Int) : shiftWeekdaysStr r k = .ok (joinInts (dedup (L.map fun n => (n + k % 7) % 7))) := by
  rw [shiftWeekdaysStr, hr]
  rfl

/-- Days moved modulo 7 are day numbers. -/
theorem mem_dedup_map_emod {L : List Int} {k : Int} :
    ∀ n ∈ dedup (L.map fun n => (n + k) % 7), 0 ≤ n ∧ n < 7 := by
  intro n hn
  obtain ⟨m, -, rfl⟩ := List.mem_map.1 (mem_dedup.1 hn)
  omega

/-- The output of a shift expands back to the shifted days. -/
theorem expandWeekdaysStr_shifted {L : List Int} (hne : L ≠ []) (k : Int) :
    expandWeekdaysStr (joinInts (dedup (L.map fun n => (n + k) % 7))) =
      .ok (dedup (L.map fun n => (n + k) % 7)) := by
  rw [expandWeekdaysStr_joinInts (dedup_ne_nil (by simpa using hne)) mem_dedup_map_emod,
    dedup_dedup]

/-- Shifting twice is shifting once by the sum, and shifting by `0` keeps the days of a spec in
`0..6`, for every spec that expands to some days and all integer shifts. -/
theorem shiftWeekdaysStr_acts_mod7 (r : String) (L : List Int)
    (hr : expandWeekdaysStr r = .ok L) (hne : L ≠ []) (a b : Int) :
    (∃ s t, shiftWeekdaysStr r a = .ok s ∧ shiftWeekdaysStr s b = .ok t ∧
      shiftWeekdaysStr r (a + b) = .ok t) ∧
    ((∀ n ∈ L, 0 ≤ n ∧ n < 7) → ∃ s L', shiftWeekdaysStr r 0 = .ok s ∧
      expandWeekdaysStr s = .ok L' ∧ ∀ x, x ∈ L' ↔ x ∈ L) := by
  refine ⟨⟨_, _, shiftWeekdaysStr_eq hr a, shiftWeekdaysStr_eq (expandWeekdaysStr_shifted hne _) b,
    ?_⟩, fun hL => ⟨_, _, shiftWeekdaysStr_eq hr 0, expandWeekdaysStr_shifted hne _, fun x => ?_⟩⟩
  · have hab : ((fun n => (n + b % 7) % 7) ∘ fun n => (n + a % 7) % 7) =
        fun n : Int => (n + (a + b) % 7) % 7 := by
      funext n
      simp only [Function.comp]
      omega
    rw [shiftWeekdaysStr_eq hr, dedup_map_dedup, List.map_map, hab]
  · have hid : L.map (fun n => (n + 0 % 7) % 7) = L :=
      (List.map_congr_left fun n hn => by have := hL n hn; omega).trans (List.map_id' L)
    rw [hid, mem_dedup]

/-- The laws at the spec `1-5` (Monday to Friday), shifted by `3` and then by `-10`. -/
theorem shiftWeekdaysStr_acts_mod7_weekdays :
    expandWeekdaysStr "1-5" = .ok [1, 2, 3, 4, 5] ∧ [1, 2, 3, 4, 5] ≠ ([] : List Int) ∧
    (∃ s t, shiftWeekdaysStr "1-5" 3 = .ok s ∧ shiftWeekdaysStr s (-10) = .ok t ∧
      shiftWeekdaysStr "1-5" (3 + -10) = .ok t) ∧
    ((∀ n ∈ [1, 2, 3, 4, 5], (0 : Int) ≤ n ∧ n < 7) → ∃ s L', shiftWeekdaysStr "1-5" 0 = .ok s ∧
      expandWeekdaysStr s = .ok L' ∧ ∀ x, x ∈ L' ↔ x ∈ [1, 2, 3, 4, 5]) :=
  ⟨rfl, by decide, shiftWeekdaysStr_acts_mod7 "1-5" [1, 2, 3, 4, 5] rfl (by decide) 3 (-10)⟩

end TenantPower
