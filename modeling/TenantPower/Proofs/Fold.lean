import TenantPower.WeekdaySpec
import TenantPower.Proofs.Text

/-!
# Proofs: case and accent folding

The day-name parser lowercases the whole spec and strips its accents before it cuts it at commas
and dashes; the language folds each word on its own. The two agree because folding maps code
points one by one, fixes the separators and sends nothing else to them (`fold_splitOn`,
`splitOnce_fold`). Folding never yields an accented vowel either, so of the two spellings of
Wednesday and Saturday in `DAYS_ES` only the plain one is ever looked up, and `DAYS_ES` then
agrees with `dayNames` (`atomDay_of_daysEs`).
-/

namespace TenantPower

theorem char_eq_of_toNat {c d : Char} (h : c.toNat = d.toNat) : c = d := by
  rw [← Char.ofNat_toNat c, h, Char.ofNat_toNat]

theorem toNat_ofNat_of_lt {n : Nat} (h : n < 0xd800) : (Char.ofNat n).toNat = n := by
  have hv : n.isValidChar := Or.inl h
  simp [Char.ofNat, hv, Char.ofNatAux, Char.toNat, UInt32.toNat]

/-! ## One code point -/

theorem lowerChar_of_lt {c : Char} (h : c.toNat < 65) : lowerChar c = c := by
  rw [lowerChar, if_neg (by omega)]

/-- Only a code point below `A` lowercases to one below `A`. -/
theorem lowerChar_eq_iff {c d : Char} (hd : d.toNat < 65) : lowerChar c = d ↔ c = d := by
  refine ⟨fun h => ?_, by rintro rfl; exact lowerChar_of_lt hd⟩
  unfold lowerChar at h
  split_ifs at h with hc
  · have := congrArg Char.toNat h
    rw [toNat_ofNat_of_lt (by omega)] at this
    omega
  · exact h

theorem baseLetter_of_lt {c : Char} (h : c.toNat < 192) : baseLetter c = c := by
  rw [baseLetter, if_neg (by omega)]

theorem baseLetter_cases (c : Char) : baseLetter c = c ∨ baseLetter c ∈ latin1Bases := by
  unfold baseLetter
  split_ifs
  · rw [List.getD_eq_getElem?_getD]
    cases h : latin1Bases[c.toNat - 0xC0]? with
    | none => exact Or.inl rfl
    | some x => exact Or.inr (List.getElem?_mem h)
  · exact Or.inl rfl

/-- A code point below `À` that is no base letter is the base letter of itself alone. -/
theorem baseLetter_eq_iff {c d : Char} (hd : d.toNat < 192) (hn : d ∉ latin1Bases) :
    baseLetter c = d ↔ c = d := by
  refine ⟨fun h => ?_, by rintro rfl; exact baseLetter_of_lt hd⟩
  rcases baseLetter_cases c with hc | hc
  · exact hc.symm.trans h
  · exact absurd (h ▸ hc) hn

theorem isCombiningMark_of_lt {c : Char} (h : c.toNat < 768) : isCombiningMark c = false := by
  simp [isCombiningMark]
  omega

/-- Folding never yields `é` or `á`. -/
theorem baseLetter_ne_accented (c : Char) : baseLetter c ≠ 'é' ∧ baseLetter c ≠ 'á' := by
  rcases baseLetter_cases c with hc | hc
  · rw [hc]
    constructor <;> rintro rfl <;> exact absurd hc (by decide)
  · constructor <;> intro h <;> rw [h] at hc <;> exact absurd hc (by decide)

/-! ## Words -/

/-- The case and accent folding of a word. -/
theorem stripAccents_lower_eq (w : List Char) :
    stripAccents (lower w) = ((w.map lowerChar).filter fun c => !isCombiningMark c).map baseLetter :=
  rfl

/-- A word of code points below `A` folds to itself. -/
theorem fold_of_lt {w : List Char} (h : ∀ c ∈ w, c.toNat < 65) : stripAccents (lower w) = w := by
  induction w with
  | nil => rfl
  | cons c w ih =>
    have hc := h c (List.mem_cons_self c w)
    have ih := ih fun x hx => h x (List.mem_cons_of_mem c hx)
    simp only [stripAccents_lower_eq, List.map_cons, lowerChar_of_lt hc, List.filter_cons,
      isCombiningMark_of_lt (show c.toNat < 768 by omega), Bool.not_false, if_true] at ih ⊢
    rw [baseLetter_of_lt (by omega), ih]

theorem fold_append (a b : List Char) :
    stripAccents (lower (a ++ b)) = stripAccents (lower a) ++ stripAccents (lower b) := by
  simp [stripAccents_lower_eq]

/-- Folding commutes with cutting at a separator below `A` that is no base letter. -/
theorem fold_splitOn {sep : Char} (hs : sep.toNat < 65) (hn : sep ∉ latin1Bases) (t : List Char) :
    (stripAccents (lower t)).splitOn sep = (t.splitOn sep).map fun w => stripAccents (lower w) := by
  rw [stripAccents_lower_eq, splitOn_map baseLetter fun c => baseLetter_eq_iff (by omega) hn,
    splitOn_filter _ (by simp [isCombiningMark_of_lt (show sep.toNat < 768 by omega)]),
    splitOn_map lowerChar fun c => lowerChar_eq_iff hs]
  simp [Function.comp_def, stripAccents_lower_eq]

/-- A separator below `A` that is no base letter occurs in a folded word where it occurs in the
word. -/
theorem mem_fold_iff {sep : Char} (hs : sep.toNat < 65) (hn : sep ∉ latin1Bases) (w : List Char) :
    sep ∈ stripAccents (lower w) ↔ sep ∈ w := by
  simp only [stripAccents_lower_eq, List.mem_map, List.mem_filter, baseLetter_eq_iff (by omega) hn,
    lowerChar_eq_iff hs]
  constructor
  · rintro ⟨c, ⟨⟨x, hx, rfl⟩, -⟩, hxc⟩
    rwa [(lowerChar_eq_iff hs).1 hxc] at hx
  · intro h
    exact ⟨sep, ⟨⟨sep, h, lowerChar_of_lt hs⟩, by
      simp [isCombiningMark_of_lt (show sep.toNat < 768 by omega)]⟩, rfl⟩

/-- `splitOnce` at the first separator of `a ++ sep :: b`. -/
theorem splitOnce_append {sep : Char} {a : List Char} (h : sep ∉ a) (b : List Char) :
    splitOnce sep (a ++ sep :: b) = (a, b) := by
  have hw : ∀ x ∈ a, (x != sep) = true := by
    intro x hx
    simp only [bne_iff_ne, ne_eq]
    rintro rfl
    exact h hx
  simp [splitOnce, List.takeWhile_append_of_pos hw, List.dropWhile_append_of_pos hw]

/-! ## Day names -/

/-- A folded word is neither `miércoles` nor `sábado`. -/
theorem fold_ne_accented (w : List Char) :
    String.mk (stripAccents w) ≠ "miércoles" ∧ String.mk (stripAccents w) ≠ "sábado" := by
  have he : 'é' ∉ stripAccents w := by
    simp only [stripAccents, List.mem_map, not_exists, not_and]
    exact fun c _ => (baseLetter_ne_accented c).1
  have ha : 'á' ∉ stripAccents w := by
    simp only [stripAccents, List.mem_map, not_exists, not_and]
    exact fun c _ => (baseLetter_ne_accented c).2
  refine ⟨fun h => he ?_, fun h => ha ?_⟩
  · rw [show stripAccents w = "miércoles".toList from congrArg String.toList h]
    decide
  · rw [show stripAccents w = "sábado".toList from congrArg String.toList h]
    decide

/-- `DAYS_ES` and `dayNames` agree on the plain spellings. -/
theorem dayNames_of_daysEs {x : String} {n : Int} (h : daysEs.lookup x = some n)
    (h1 : x ≠ "miércoles") (h2 : x ≠ "sábado") : dayNames.lookup x = some n.toNat ∧ 0 ≤ n ∧ n < 7 := by
  obtain ⟨l₁, l₂, hl, -⟩ := List.lookup_eq_some_iff.1 h
  have hmem : (x, n) ∈ daysEs := hl ▸ List.mem_append_right _ (List.mem_cons_self _ _)
  simp only [daysEs, List.mem_cons, Prod.mk.injEq, List.mem_singleton, List.not_mem_nil,
    or_false] at hmem
  rcases hmem with ⟨rfl, rfl⟩ | ⟨rfl, rfl⟩ | ⟨rfl, rfl⟩ | ⟨rfl, rfl⟩ | ⟨rfl, rfl⟩ | ⟨rfl, rfl⟩ |
    ⟨rfl, rfl⟩ | ⟨rfl, rfl⟩ | ⟨rfl, rfl⟩ <;> first | exact absurd rfl h1 | exact absurd rfl h2 |
    exact ⟨rfl, by decide, by decide⟩

/-- A day name of `DAYS_ES`, found for a folded word, is the day the language gives the word. -/
theorem atomDay_of_daysEs {w : List Char} {n : Int}
    (h : daysEs.lookup (String.mk (stripAccents (lower w))) = some n) :
    atomDay w = some n.toNat ∧ 0 ≤ n ∧ n < 7 := by
  have hd := dayNames_of_daysEs h (fold_ne_accented _).1 (fold_ne_accented _).2
  match w, h, hd with
  | [c], h, hd =>
    by_cases hc : isDayDigit c
    · have hlt : ∀ x ∈ [c], x.toNat < 65 := by
        simp only [isDayDigit, Bool.and_eq_true, decide_eq_true_eq] at hc
        simp only [List.mem_singleton, forall_eq]
        omega
      rw [fold_of_lt hlt] at h
      obtain ⟨l₁, l₂, hl, -⟩ := List.lookup_eq_some_iff.1 h
      have hmem : (String.mk [c], n) ∈ daysEs := hl ▸ List.mem_append_right _ (List.mem_cons_self _ _)
      -- no day name of the table is one code point long
      exact absurd (show (String.mk [c]).length = 1 from rfl)
        ((by decide : ∀ q ∈ daysEs, q.1.length ≠ 1) _ hmem)
    · simp only [atomDay, hc, if_false, nameDay]
      exact hd
  | [], _, hd => exact hd
  | _ :: _ :: _, _, hd => exact hd

/-- A word of code points below `A` (digits, dashes, commas) is no day name. -/
theorem nameDay_of_lt {w : List Char} (h : ∀ c ∈ w, c.toNat < 65) : nameDay w = none := by
  rw [nameDay, fold_of_lt h, List.lookup_eq_none_iff]
  intro p hp
  -- every day name has a lowercase letter
  obtain ⟨c, hc, hc97⟩ := (by decide : ∀ q ∈ dayNames, ∃ c ∈ q.1.toList, 97 ≤ c.toNat) p hp
  simp only [bne_iff_ne, ne_eq]
  intro heq
  have := h c ((show w = p.1.toList from congrArg String.toList heq) ▸ hc)
  omega

end TenantPower
