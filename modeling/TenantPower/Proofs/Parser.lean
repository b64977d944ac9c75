import TenantPower.Proofs.Fold
import TenantPower.Proofs.Shift

/-!
# Proofs: the weekday parser against the language

`humanWeekdaysToKube` takes one of three paths: a blank spec, the numeric fast path, and the day
names. On a spec of the language (`weekdaySpecDays s = some D`) each path hands on a string that
`expandWeekdaysStr` reads as `D` without its repetitions (`expandWeekdaysStr_of_humanWeekdaysToKube`).
Each path is a simulation over the comma-separated pieces: one lemma per piece
(`partDays_fold`, `chunkDays_of_itemDays`) and an induction over the pieces.
-/

namespace TenantPower

/-! ## Pieces -/

/-- A piece of a split holds no separator. -/
theorem not_mem_of_mem_splitOn {sep : Char} :
    ∀ {l w : List Char}, w ∈ l.splitOn sep → sep ∉ w
  | [], w, hw => by simp_all
  | c :: cs, w, hw => by
    simp only [List.splitOn, List.splitOnP_cons, beq_iff_eq] at hw
    split_ifs at hw with hc
    · rcases List.mem_cons.1 hw with rfl | hw
      · simp
      · exact not_mem_of_mem_splitOn hw
    · obtain ⟨r, rs, hr⟩ := List.exists_cons_of_ne_nil (List.splitOnP_ne_nil (· == sep) cs)
      have hr' : r :: rs = cs.splitOn sep := hr.symm
      rw [hr, List.modifyHead_cons] at hw
      rcases List.mem_cons.1 hw with rfl | hw
      · simp only [List.mem_cons, not_or]
        exact ⟨Ne.symm hc, not_mem_of_mem_splitOn (hr' ▸ List.mem_cons_self r rs)⟩
      · exact not_mem_of_mem_splitOn (hr' ▸ List.mem_cons_of_mem r hw)

/-- A piece of a split holds only code points of the split text. -/
theorem mem_of_mem_splitOn {sep c : Char} :
    ∀ {l w : List Char}, w ∈ l.splitOn sep → c ∈ w → c ∈ l
  | [], w, hw, hc => by simp_all
  | x :: cs, w, hw, hc => by
    simp only [List.splitOn, List.splitOnP_cons, beq_iff_eq] at hw
    split_ifs at hw with hx
    · rcases List.mem_cons.1 hw with rfl | hw
      · simp at hc
      · exact List.mem_cons_of_mem x (mem_of_mem_splitOn hw hc)
    · obtain ⟨r, rs, hr⟩ := List.exists_cons_of_ne_nil (List.splitOnP_ne_nil (· == sep) cs)
      have hr' : r :: rs = cs.splitOn sep := hr.symm
      rw [hr, List.modifyHead_cons] at hw
      rcases List.mem_cons.1 hw with rfl | hw
      · rcases List.mem_cons.1 hc with rfl | hc
        · exact List.mem_cons_self _ _
        · exact List.mem_cons_of_mem x (mem_of_mem_splitOn (hr' ▸ List.mem_cons_self r rs) hc)
      · exact List.mem_cons_of_mem x (mem_of_mem_splitOn (hr' ▸ List.mem_cons_of_mem r hw) hc)

/-- A text split into one piece is that piece. -/
theorem eq_of_splitOn_eq_singleton {sep : Char} {l x : List Char} (h : l.splitOn sep = [x]) :
    l = x := by
  have hl := List.intercalate_splitOn l sep
  rw [h] at hl
  simpa [List.intercalate] using hl.symm

/-- A text split into two pieces is the two around one separator. -/
theorem eq_of_splitOn_eq_pair {sep : Char} {l x y : List Char} (h : l.splitOn sep = [x, y]) :
    l = x ++ sep :: y := by
  have hl := List.intercalate_splitOn l sep
  rw [h] at hl
  simpa [List.intercalate] using hl.symm

/-! ## Days -/

/-- The source's range of two days is the language's range round the week. -/
theorem dayRange_eq_circularRange {a b : Nat} (ha : a < 7) (hb : b < 7) :
    dayRange a b = (circularRange a b).map Int.ofNat := by
  unfold dayRange circularRange pyRange
  by_cases hab : a ≤ b
  · rw [if_pos (by omega), show ((b : Int) + 1 - a).toNat = (b + 7 - a) % 7 + 1 by omega,
      List.map_map]
    exact List.map_congr_left fun i hi => by simp at hi; simp; omega
  · rw [if_neg (by omega), show (b + 7 - a) % 7 + 1 = (7 - a) + (b + 1) by omega, List.range_add,
      show ((7 : Int) - a).toNat = 7 - a by omega, show ((b : Int) + 1 - 0).toNat = b + 1 by omega]
    simp only [List.map_append, List.map_map]
    congr 1
    · exact List.map_congr_left fun i hi => by simp at hi; simp; omega
    · exact List.map_congr_left fun i hi => by simp at hi; simp; omega

theorem atomDay_lt {w : List Char} {d : Nat} (h : atomDay w = some d) : d < 7 := by
  have hname : ∀ {v : List Char}, nameDay v = some d → d < 7 := by
    intro v hv
    obtain ⟨l₁, l₂, hl, -⟩ := List.lookup_eq_some_iff.1 hv
    have hmem : (_, d) ∈ dayNames := hl ▸ List.mem_append_right _ (List.mem_cons_self _ _)
    simp only [dayNames, List.mem_cons, Prod.mk.injEq, List.mem_singleton, List.not_mem_nil,
      or_false] at hmem
    omega
  match w, h with
  | [c], h =>
    simp only [atomDay] at h
    split_ifs at h with hc
    · simp only [isDayDigit, Bool.and_eq_true, decide_eq_true_eq] at hc
      simp only [Option.some.injEq] at h
      omega
    · exact hname h
  | [], h => exact hname h
  | _ :: _ :: _, h => exact hname h

/-- What the language makes of an item: one word, or two words around the item's first dash. -/
theorem itemDays_cases {w : List Char} {a : List Nat} (h : itemDays w = some a) :
    ('-' ∉ w ∧ ∃ d, atomDay w = some d ∧ a = [d]) ∨
    (∃ x y p q, w = x ++ '-' :: y ∧ '-' ∉ x ∧ atomDay x = some p ∧ atomDay y = some q ∧
      a = circularRange p q) := by
  unfold itemDays at h
  split at h
  · rename_i x hx
    obtain ⟨d, hd, rfl⟩ := Option.map_eq_some'.1 h
    rw [eq_of_splitOn_eq_singleton hx]
    exact .inl ⟨not_mem_of_mem_splitOn (hx ▸ List.mem_singleton_self x), d, hd, rfl⟩
  · rename_i x y hxy
    simp only [Option.bind_eq_bind, Option.bind_eq_some, Option.pure_def, Option.some.injEq] at h
    obtain ⟨p, hp, q, hq, rfl⟩ := h
    exact .inr ⟨x, y, p, q, eq_of_splitOn_eq_pair hxy,
      not_mem_of_mem_splitOn (hxy ▸ List.mem_cons_self x [y]), hp, hq, rfl⟩
  · exact absurd h (by simp)

/-- The days of a list of items are those of its head followed by those of its tail. -/
theorem itemsDays_cons_eq_some {w : List Char} {P : List (List Char)} {D : List Nat} :
    itemsDays (w :: P) = some D ↔ ∃ a b, itemDays w = some a ∧ itemsDays P = some b ∧ D = a ++ b := by
  simp only [itemsDays, Option.bind_eq_bind, Option.bind_eq_some, Option.pure_def,
    Option.some.injEq]
  constructor
  · rintro ⟨a, ha, b, hb, rfl⟩
    exact ⟨a, b, ha, hb, rfl⟩
  · rintro ⟨a, b, ha, hb, rfl⟩
    exact ⟨a, ha, b, hb, rfl⟩

/-- An item denotes at least one day, and only days `0`–`6`. -/
theorem itemDays_spec {w : List Char} {a : List Nat} (h : itemDays w = some a) :
    a ≠ [] ∧ ∀ d ∈ a, d < 7 := by
  unfold itemDays at h
  split at h
  · obtain ⟨d, hd, rfl⟩ := Option.map_eq_some'.1 h
    exact ⟨by simp, by simpa using atomDay_lt hd⟩
  · simp only [Option.bind_eq_bind, Option.bind_eq_some, Option.pure_def, Option.some.injEq] at h
    obtain ⟨x, hx, y, -, rfl⟩ := h
    refine ⟨by simp [circularRange], fun d hd => ?_⟩
    simp only [circularRange, List.mem_map] at hd
    omega
  · exact absurd h (by simp)

/-- The items of a spec denote days `0`–`6`, at least one when there is an item. -/
theorem itemsDays_spec : ∀ {P : List (List Char)} {D : List Nat}, itemsDays P = some D →
    (P ≠ [] → D ≠ []) ∧ ∀ d ∈ D, d < 7
  | [], D, h => by simp_all [itemsDays]
  | w :: P, D, h => by
    simp only [itemsDays, Option.bind_eq_bind, Option.bind_eq_some, Option.pure_def,
      Option.some.injEq] at h
    obtain ⟨a, ha, b, hb, rfl⟩ := h
    obtain ⟨ha1, ha2⟩ := itemDays_spec ha
    refine ⟨fun _ => by simp [ha1], fun d hd => ?_⟩
    rcases List.mem_append.1 hd with hd | hd
    · exact ha2 d hd
    · exact (itemsDays_spec hb).2 d hd

/-! ## One item -/

/-- A word that the language reads as a day folds to a non-empty word. -/
theorem atomDay_fold_ne_nil {w : List Char} {d : Nat} (h : atomDay w = some d) :
    stripAccents (lower w) ≠ [] := by
  have hname : nameDay w = some d → stripAccents (lower w) ≠ [] := fun hn h0 => by
    rw [nameDay, h0, show dayNames.lookup (String.mk []) = none by decide] at hn
    cases hn
  match w, h with
  | [c], h =>
    simp only [atomDay] at h
    split_ifs at h with hc
    · simp only [isDayDigit, Bool.and_eq_true, decide_eq_true_eq] at hc
      rw [fold_of_lt (by simp; omega)]
      simp
    · exact hname h
  | [], h => exact hname h
  | _ :: _ :: _, h => exact hname h

/-- An item of the language folds to a non-empty piece. -/
theorem itemDays_fold_ne_nil {w : List Char} {a : List Nat} (h : itemDays w = some a) :
    stripAccents (lower w) ≠ [] := by
  rcases itemDays_cases h with ⟨-, d, hd, -⟩ | ⟨x, y, -, -, rfl, -, -, -, -⟩
  · exact atomDay_fold_ne_nil hd
  · intro h0
    have hm := (mem_fold_iff (show ('-' : Char).toNat < 65 by decide) (by decide)
      (x ++ '-' :: y)).2 (by simp)
    rw [h0] at hm
    cases hm

/-- A word of code points below `A` that the language reads as a day is one digit. -/
theorem atomDay_of_lt {w : List Char} {d : Nat} (hlt : ∀ c ∈ w, c.toNat < 65)
    (h : atomDay w = some d) : ∃ c, w = [c] ∧ isDayDigit c = true ∧ d = c.toNat - 48 := by
  have hname : nameDay w ≠ some d := by rw [nameDay_of_lt hlt]; simp
  match w, h, hname with
  | [c], h, hname =>
    simp only [atomDay] at h
    split_ifs at h with hc
    · exact ⟨c, rfl, hc, (Option.some.inj h).symm⟩
    · exact absurd h hname
  | [], h, hname => exact absurd h hname
  | _ :: _ :: _, h, hname => exact absurd h hname

/-- One item on the name path: `partDays` finds in the folded item the days the language gives
the item. -/
theorem partDays_fold {w : List Char} {a : List Nat} {x : List Int} (ha : itemDays w = some a)
    (hx : partDays (stripAccents (lower w)) = .ok x) : x = a.map Int.ofNat := by
  have hm := mem_fold_iff (show ('-' : Char).toNat < 65 by decide) (by decide)
  rcases itemDays_cases ha with ⟨hw, d, hd, rfl⟩ | ⟨y, z, p, q, rfl, hy, hp, hq, rfl⟩
  · rw [partDays, if_neg (mt (hm w).1 hw)] at hx
    split at hx
    · rename_i n hn
      obtain ⟨hn', h0, -⟩ := atomDay_of_daysEs hn
      rw [hd, Option.some.injEq] at hn'
      cases hx
      simp [hn', Int.toNat_of_nonneg h0]
    · cases hx
  · have hfold : stripAccents (lower (y ++ '-' :: z)) =
        stripAccents (lower y) ++ '-' :: stripAccents (lower z) := by
      rw [fold_append, show '-' :: z = ['-'] ++ z from rfl, fold_append,
        fold_of_lt (show ∀ c ∈ ['-'], c.toNat < 65 by decide)]
      rfl
    rw [partDays, hfold, if_pos (by simp), splitOnce_append (mt (hm y).1 hy)] at hx
    split at hx
    · rename_i s t hs ht
      obtain ⟨hs', hs0, hs7⟩ := atomDay_of_daysEs hs
      obtain ⟨ht', ht0, ht7⟩ := atomDay_of_daysEs ht
      rw [hp, Option.some.injEq] at hs'
      rw [hq, Option.some.injEq] at ht'
      cases hx
      rw [← dayRange_eq_circularRange (by omega) (by omega), hs', ht', Int.toNat_of_nonneg hs0,
        Int.toNat_of_nonneg ht0]
    · cases hx

/-- One item on the numeric path: `chunkDays` reads an item of code points below `A` as the days
the language gives the item. -/
theorem chunkDays_of_itemDays {w : List Char} {a : List Nat} (hlt : ∀ c ∈ w, c.toNat < 65)
    (ha : itemDays w = some a) : chunkDays w = .ok (a.map Int.ofNat) := by
  have hdigit : ∀ {c : Char}, isDayDigit c = true →
      isAsciiDigit c = true ∧ c ≠ '-' ∧ c.toNat - 48 < 7 := fun hc => by
    simp only [isDayDigit, isAsciiDigit, Bool.and_eq_true, decide_eq_true_eq] at hc ⊢
    refine ⟨⟨hc.1, by omega⟩, fun h => by rw [h] at hc; simp at hc, by omega⟩
  rcases itemDays_cases ha with ⟨hw, d, hd, rfl⟩ | ⟨y, z, p, q, rfl, hy, hp, hq, rfl⟩
  · obtain ⟨c, rfl, hc, rfl⟩ := atomDay_of_lt hlt hd
    rw [chunkDays, if_neg hw, pyInt_digit (hdigit hc).1]
    rfl
  · obtain ⟨c, rfl, hc, rfl⟩ := atomDay_of_lt (fun x hx => hlt x (List.mem_append_left _ hx)) hp
    obtain ⟨e, rfl, he, rfl⟩ := atomDay_of_lt
      (fun x hx => hlt x (List.mem_append_right _ (List.mem_cons_of_mem _ hx))) hq
    rw [chunkDays, if_pos (by simp), splitOnce_append hy, pyInt_digit (hdigit hc).1,
      pyInt_digit (hdigit he).1]
    exact congrArg Except.ok (dayRange_eq_circularRange (hdigit hc).2.2 (hdigit he).2.2)

/-! ## The pieces of a spec -/

/-- The numeric path over the comma-separated pieces: each non-empty piece is an item, which
`chunkDays` reads, and an empty piece adds no day. -/
theorem extendAll_chunkDays : ∀ {P : List (List Char)} {D : List Nat},
    (∀ w ∈ P, ∀ c ∈ w, c.toNat < 65 ∧ isPySpace c = false) →
    itemsDays (P.filter (· != [])) = some D →
    extendAll (fun chunk => if strip chunk = [] then pure [] else chunkDays (strip chunk)) P =
      .ok (D.map Int.ofNat)
  | [], D, _, h => by cases h; rfl
  | w :: P, D, hP, h => by
    have hw := hP w (List.mem_cons_self w P)
    have ih := @extendAll_chunkDays P
    have hP' : ∀ v ∈ P, ∀ c ∈ v, c.toNat < 65 ∧ isPySpace c = false :=
      fun v hv => hP v (List.mem_cons_of_mem w hv)
    rw [extendAll, strip_eq_self fun c hc => (hw c hc).2]
    by_cases he : w = []
    · subst he
      rw [if_pos rfl, ih hP' (by simpa using h)]
      rfl
    · obtain ⟨a, b, ha, hb, rfl⟩ := itemsDays_cons_eq_some.1 (by simpa [he] using h)
      rw [if_neg he, chunkDays_of_itemDays (fun c hc => (hw c hc).1) ha, ih hP' hb]
      simp only [ok_bind, List.map_append]
      rfl

/-- The name path over the comma-separated pieces: each non-empty piece is an item, which
`partDays` reads folded, and an empty piece folds to an empty one, which is skipped. -/
theorem extendAll_partDays : ∀ {P : List (List Char)} {D : List Nat} {nums : List Int},
    itemsDays (P.filter (· != [])) = some D →
    extendAll partDays ((P.map fun w => stripAccents (lower w)).filter (· != [])) = .ok nums →
    nums = D.map Int.ofNat
  | [], D, nums, hD, h => by cases hD; cases h; rfl
  | w :: P, D, nums, hD, h => by
    by_cases he : w = []
    · subst he
      exact extendAll_partDays (by simpa using hD) (by simpa [lower, stripAccents] using h)
    · obtain ⟨a, b, ha, hb, rfl⟩ := itemsDays_cons_eq_some.1 (by simpa [he] using hD)
      rw [List.map_cons, List.filter_cons_of_pos (by simpa using itemDays_fold_ne_nil ha),
        extendAll_cons_eq_ok] at h
      obtain ⟨x, y, hx, hy, rfl⟩ := h
      rw [partDays_fold ha hx, extendAll_partDays hb hy, List.map_append]

/-! ## The three paths -/

/-- A code point of a numeric spec: a digit, a dash or a comma. -/
theorem chainChar_lt {c : Char} (h : isAsciiDigit c = true ∨ c = '-' ∨ c = ',') :
    c.toNat < 65 ∧ isPySpace c = false ∧ isSpanishLetter c = false := by
  have hlt : 44 ≤ c.toNat ∧ c.toNat < 65 := by
    rcases h with h | rfl | rfl
    · simp only [isAsciiDigit, Bool.and_eq_true, decide_eq_true_eq] at h; omega
    · decide
    · decide
  have hacc : ∀ x ∈ "ÁÉÍÓÚáéíóúÑñ".toList, 65 ≤ x.toNat := by decide
  refine ⟨hlt.2, ?_, ?_⟩
  · simp only [isPySpace]
    simp
    omega
  · simp only [isSpanishLetter, Bool.or_eq_false_iff, Bool.and_eq_false_iff, decide_eq_false_iff_not]
    refine ⟨⟨by omega, by omega⟩, ?_⟩
    simp only [List.contains, List.elem_eq_mem, decide_eq_false_iff_not]
    exact fun hm => absurd (hacc c hm) (by omega)

/-- A text matching `\d(?:[-,]\d)*` is digits, dashes and commas, and does not start with a
comma. -/
theorem digitChain_spec : ∀ {t : List Char}, digitChain t = true →
    (∀ c ∈ t, c.toNat < 65 ∧ isPySpace c = false ∧ isSpanishLetter c = false) ∧
      ∃ c cs, t = c :: cs ∧ c ≠ ','
  | [d], h => by
    simp only [digitChain] at h
    refine ⟨by simpa using chainChar_lt (.inl h), d, [], rfl, fun hd => by rw [hd] at h; cases h⟩
  | d :: x :: rest, h => by
    simp only [digitChain, Bool.and_eq_true, Bool.or_eq_true, beq_iff_eq] at h
    obtain ⟨⟨hd, hx⟩, hr⟩ := h
    refine ⟨?_, d, x :: rest, rfl, fun he => by rw [he] at hd; cases hd⟩
    simp only [List.mem_cons]
    rintro c (rfl | rfl | hc)
    · exact chainChar_lt (.inl hd)
    · exact chainChar_lt (.inr hx)
    · exact (digitChain_spec hr).1 c hc
  | [], h => by cases h

/-- A text that does not start with the separator has a non-empty first piece. -/
theorem splitOn_cons_of_ne {sep c : Char} (hc : c ≠ sep) (cs : List Char) :
    ∃ w ws, (c :: cs).splitOn sep = (c :: w) :: ws := by
  obtain ⟨w, ws, hw⟩ := List.exists_cons_of_ne_nil (List.splitOnP_ne_nil (· == sep) cs)
  refine ⟨w, ws, ?_⟩
  simp only [List.splitOn, List.splitOnP_cons, beq_iff_eq, hc, if_false]
  rw [show cs.splitOnP (· == sep) = w :: ws from hw]
  rfl

/-- Lowercasing commutes with dropping the blanks. -/
theorem filter_lower (l : List Char) : (lower l).filter (· != ' ') = lower (l.filter (· != ' ')) := by
  rw [lower, List.filter_map, lower]
  congr 1
  exact List.filter_congr fun c _ => by
    rw [Function.comp, Bool.eq_iff_iff]
    simp only [bne_iff_ne, ne_eq, lowerChar_eq_iff (show (' ' : Char).toNat < 65 by decide)]

/-- On a spec of the language, whose only whitespace is blanks, `strip` followed by dropping the
blanks, or all whitespace, leaves the text the language reads. -/
theorem strip_filter_of_spec {s : List Char}
    (hws : (s.any fun c => isPySpace c && c != ' ') = false) :
    (strip s).filter (· != ' ') = s.filter (· != ' ') ∧
      (strip s).filter (fun c => !isPySpace c) = s.filter (· != ' ') := by
  have hsp : ∀ c ∈ s, isPySpace c = true → c = ' ' := fun c hc h => by
    simpa [h] using List.any_eq_false.1 hws c hc
  refine ⟨filter_strip fun c hc h => by simp [hsp c hc h], ?_⟩
  rw [filter_strip fun c _ h => by simp [h]]
  refine List.filter_congr fun c hc => ?_
  by_cases h : isPySpace c = true
  · rw [h, hsp c hc h]
    rfl
  · have hne : c ≠ ' ' := fun he => h (by rw [he]; decide)
    simp [h, hne]

/-- What `weekdaySpecDays` makes of a spec: its only whitespace is blanks, and it denotes every
day when it has no item, or else the days of its items. -/
theorem weekdaySpecDays_cases {s : String} {D : List Nat} (h : weekdaySpecDays s = some D) :
    (s.toList.any fun c => isPySpace c && c != ' ') = false ∧
      (specItems s = [] ∧ D = List.range 7 ∨ specItems s ≠ [] ∧ itemsDays (specItems s) = some D) := by
  unfold weekdaySpecDays at h
  split_ifs at h with hws hitems
  · exact ⟨by simpa using hws, .inl ⟨hitems, (Option.some.inj h).symm⟩⟩
  · exact ⟨by simpa using hws, .inr ⟨hitems, h⟩⟩

/-- A spec of the language denotes at least one day, and only days `0`–`6`. -/
theorem weekdaySpecDays_spec {s : String} {D : List Nat} (h : weekdaySpecDays s = some D) :
    D ≠ [] ∧ ∀ d ∈ D, d < 7 := by
  rcases (weekdaySpecDays_cases h).2 with ⟨-, rfl⟩ | ⟨hne, h⟩
  · exact ⟨by decide, fun d hd => List.mem_range.1 hd⟩
  · exact ⟨(itemsDays_spec h).1 hne, (itemsDays_spec h).2⟩

/-- Days `0`–`6` as `int`s. -/
theorem mem_dedup_ofNat {D : List Nat} (hD : ∀ d ∈ D, d < 7) :
    ∀ n ∈ dedup (D.map Int.ofNat), 0 ≤ n ∧ n < 7 := by
  intro n hn
  obtain ⟨d, hd, rfl⟩ := List.mem_map.1 (mem_dedup.1 hn)
  have := hD d hd
  simp only [Int.ofNat_eq_coe]
  omega

/-- `expandWeekdaysStr` of a numeric text whose items the language reads as `D`. -/
theorem expandWeekdaysStr_numeric {t : List Char} {D : List Nat} (ht : t ≠ [])
    (hc : ∀ c ∈ t, c.toNat < 65 ∧ isPySpace c = false ∧ isSpanishLetter c = false)
    (hD : itemsDays ((t.splitOn ',').filter (· != [])) = some D) :
    expandWeekdaysStr (String.mk t) = .ok (dedup (D.map Int.ofNat)) := by
  have hne : String.mk t ≠ "" := fun h => ht (congrArg String.toList h)
  have hletter : hasSpanishLetter t = false :=
    List.any_eq_false.2 fun c h => by simp [(hc c h).2.2]
  have htl : (String.mk t).toList = t := rfl
  have hext := extendAll_chunkDays (fun w hw c hcw => ⟨(hc c (mem_of_mem_splitOn hw hcw)).1,
    (hc c (mem_of_mem_splitOn hw hcw)).2.1⟩) hD
  simp only [expandWeekdaysStr, hne, if_false, htl, strip_eq_self fun c h => (hc c h).2.1, hletter,
    Bool.false_eq_true, pure_bind, hext]
  rfl

/-- `expandWeekdaysStr` reads in the output of `humanWeekdaysToKube`, on a spec of the language,
the days of the spec without their repetitions. -/
theorem expandWeekdaysStr_humanWeekdaysToKube {s r : String} {D : List Nat}
    (hD : weekdaySpecDays s = some D) (hr : humanWeekdaysToKube s = .ok r) :
    expandWeekdaysStr r = .ok (dedup (D.map Int.ofNat)) := by
  obtain ⟨hws, hD'⟩ := weekdaySpecDays_cases hD
  obtain ⟨hst, hsw⟩ := strip_filter_of_spec hws
  have hitems : specItems s = ((s.toList.filter (· != ' ')).splitOn ',').filter (· != []) := rfl
  simp only [humanWeekdaysToKube] at hr
  split_ifs at hr with h0 hnum
  · -- a blank spec has no item
    cases hr
    rw [h0, List.filter_nil] at hst
    rcases hD' with ⟨-, rfl⟩ | ⟨hne, -⟩
    · rfl
    · exact absurd (by rw [hitems, ← hst]; rfl) hne
  · -- the numeric path hands on the spec without its blanks
    cases hr
    rw [numericFullmatch, hsw] at hnum
    obtain ⟨hc, c, cs, hcs, hc'⟩ := digitChain_spec hnum
    rw [hst]
    rcases hD' with ⟨hnil, -⟩ | ⟨-, hD⟩
    · obtain ⟨w, ws, hw⟩ := splitOn_cons_of_ne hc' cs
      rw [hitems, hcs, hw] at hnil
      simp at hnil
    · exact expandWeekdaysStr_numeric (by rw [hcs]; exact List.cons_ne_nil c cs) hc hD
  · -- the name path reads the folded items
    obtain ⟨nums, hnums, hr⟩ := bind_eq_ok.1 hr
    cases hr
    rw [filter_lower, hst, fold_splitOn (by decide) (by decide)] at hnums
    rcases hD' with ⟨hnil, rfl⟩ | ⟨hne, hD⟩
    · have hnone : itemsDays (((s.toList.filter (· != ' ')).splitOn ',').filter (· != [])) =
          some [] := by rw [← hitems, hnil]; rfl
      rw [extendAll_partDays hnone hnums]
      rfl
    · have hDne := (itemsDays_spec hD).1 hne
      rw [extendAll_partDays hD hnums, expandWeekdaysStr_joinInts
        (dedup_ne_nil (by simpa using hDne)) (mem_dedup_ofNat (itemsDays_spec hD).2), dedup_dedup]

/-- On a spec of the language, what `humanWeekdaysToKube` accepts `expandWeekdaysStr` reads
without error: the days of the spec, each once, all in `0..6`. -/
theorem humanWeekdaysToKube_expands (s r : String) (D : List Nat)
    (hD : weekdaySpecDays s = some D) (hr : humanWeekdaysToKube s = .ok r) :
    ∃ L, expandWeekdaysStr r = .ok L ∧ L.Nodup ∧ (∀ n ∈ L, 0 ≤ n ∧ n < 7) ∧
      L = dedup (D.map Int.ofNat) :=
  ⟨_, expandWeekdaysStr_humanWeekdaysToKube hD hr, nodup_dedup,
    mem_dedup_ofNat (weekdaySpecDays_spec hD).2, rfl⟩

/-- The law at a circular range of names and a name, `viernes-lunes, Miércoles`. -/
theorem humanWeekdaysToKube_expands_circular :
    weekdaySpecDays "viernes-lunes, Miércoles" = some [5, 6, 0, 1, 3] ∧
    humanWeekdaysToKube "viernes-lunes, Miércoles" = .ok "5,6,0,1,3" ∧
    ∃ L, expandWeekdaysStr "5,6,0,1,3" = .ok L ∧ L.Nodup ∧ (∀ n ∈ L, 0 ≤ n ∧ n < 7) ∧
      L = dedup ([5, 6, 0, 1, 3].map Int.ofNat) :=
  ⟨by decide, rfl, humanWeekdaysToKube_expands "viernes-lunes, Miércoles" _ _ (by decide) rfl⟩

/-- Outside the language the numeric fast path lets through `1-2-3`, which `expandWeekdaysStr`
then rejects, and `9`, which it reads as a day outside `0..6`. -/
theorem humanWeekdaysToKube_numeric_escapes :
    humanWeekdaysToKube "1-2-3" = .ok "1-2-3" ∧
      expandWeekdaysStr "1-2-3" = .error "invalid literal for int() with base 10: '2-3'" ∧
    humanWeekdaysToKube "9" = .ok "9" ∧ expandWeekdaysStr "9" = .ok [9] :=
  ⟨rfl, rfl, rfl, rfl⟩

/-! ## Rejected specs -/

/-- `partDays` rejects a piece with a message that quotes it. -/
theorem partDays_error {p : List Char} {m : String} (h : partDays p = .error m) :
    ('-' ∉ p ∧ m = "Dia no reconocido: '" ++ String.mk p ++ "'") ∨
      ('-' ∈ p ∧ m = "Dia no reconocido en rango: '" ++ String.mk p ++ "'") := by
  unfold partDays at h
  split_ifs at h with hd
  · split at h
    · cases h
    · exact .inr ⟨hd, (Except.error.inj h).symm⟩
  · split at h
    · cases h
    · exact .inl ⟨hd, (Except.error.inj h).symm⟩

/-- `human_weekdays_to_kube` rejects a spec only on its name path, with the message of the first
piece of the lowercased, unspaced and unaccented spec that is neither a day name nor a range of
two: that message quotes the piece. -/
theorem humanWeekdaysToKube_error {s m : String} (h : humanWeekdaysToKube s = .error m) :
    ∃ pre p post, ((stripAccents ((lower (strip s.toList)).filter (· != ' '))).splitOn ',').filter
        (· != []) = pre ++ p :: post ∧ (∀ q ∈ pre, ∃ ds, partDays q = .ok ds) ∧
      (('-' ∉ p ∧ m = "Dia no reconocido: '" ++ String.mk p ++ "'") ∨
        ('-' ∈ p ∧ m = "Dia no reconocido en rango: '" ++ String.mk p ++ "'")) := by
  simp only [humanWeekdaysToKube] at h
  split_ifs at h
  rcases bind_eq_error.1 h with h | ⟨_, -, h⟩
  · obtain ⟨pre, p, post, hsplit, hpre, hp⟩ := extendAll_eq_error h
    exact ⟨pre, p, post, hsplit, hpre, partDays_error hp⟩
  · cases h

end TenantPower
