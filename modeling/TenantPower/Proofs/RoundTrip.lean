import TenantPower.Proofs.Parser

/-!
# Proofs: showing weekdays by name and reading them back

`kubeWeekdaysToHuman` shows the days of a numeric spec by their Spanish names (`dayLabel`) and
`humanWeekdaysToKube` reads names back. A canonical numeric spec survives the round trip: the
string it comes back as expands to its own days (`kubeWeekdaysToHuman_canonical`). The other
way, what `humanWeekdaysToKube` makes of a spec of the language is shown as names that the
language reads as the spec's days, each once (`kubeWeekdaysToHuman_of_spec`).

A spec without items but with commas (`,`) is every day to the language; `humanWeekdaysToKube`
turns it into the empty string, which `kubeWeekdaysToHuman` shows as `todos`, not as names.
-/

namespace TenantPower

/-- The label of a day `0`–`6` is its Spanish name: a word of letters that `partDays` and the
language both read as the day. -/
theorem dayLabel_weekday {n : Int} (h0 : 0 ≤ n) (h7 : n < 7) :
    (∀ c ∈ dayLabel n, isPySpace c = false ∧ c ≠ ' ' ∧ c ≠ ',' ∧ isAsciiDigit c = false) ∧
      dayLabel n ≠ [] ∧ stripAccents (lower (dayLabel n)) ≠ [] ∧
      partDays (stripAccents (lower (dayLabel n))) = .ok [n] ∧ nameDay (dayLabel n) = some n.toNat := by
  interval_cases n <;> exact ⟨by decide, by decide, by decide, rfl, by decide⟩

/-- A text without digits does not match `\d(?:[-,]\d)*`. -/
theorem digitChain_of_no_digit {l : List Char} (h : ∀ c ∈ l, isAsciiDigit c = false) :
    digitChain l = false := by
  match l, h with
  | [], _ => rfl
  | [c], h => simpa [digitChain] using h c (List.mem_singleton_self c)
  | c :: _ :: _, h => simp [digitChain, h c (List.mem_cons_self _ _)]

/-! ## Labels of days -/

section Labels
variable {M : List Int} (hM : ∀ n ∈ M, 0 ≤ n ∧ n < 7) (hne : M ≠ [])
include hM

/-- A join of labels holds no whitespace and no digit. -/
theorem labels_chars : ∀ c ∈ joinWith ',' (M.map dayLabel),
    isPySpace c = false ∧ c ≠ ' ' ∧ isAsciiDigit c = false := by
  refine forall_mem_joinWith (by decide) fun w hw c hc => ?_
  obtain ⟨n, hn, rfl⟩ := List.mem_map.1 hw
  obtain ⟨h1, h2, -, h4⟩ := (dayLabel_weekday (hM n hn).1 (hM n hn).2).1 c hc
  exact ⟨h1, h2, h4⟩

include hne

/-- A join of labels splits back into the labels. -/
theorem labels_splitOn : (joinWith ',' (M.map dayLabel)).splitOn ',' = M.map dayLabel :=
  List.splitOn_intercalate _ ',' (fun w hw => by
    obtain ⟨n, hn, rfl⟩ := List.mem_map.1 hw
    exact fun h => ((dayLabel_weekday (hM n hn).1 (hM n hn).2).1 ',' h).2.2.1 rfl)
    (by simpa using hne)

/-- The language reads the labels of days as those days. -/
theorem nameDay_labels :
    ((joinWith ',' (M.map dayLabel)).splitOn ',').map nameDay = M.map fun n => some n.toNat := by
  rw [labels_splitOn hM hne, List.map_map]
  exact List.map_congr_left fun n hn => (dayLabel_weekday (hM n hn).1 (hM n hn).2).2.2.2.2

/-- `humanWeekdaysToKube` reads the labels of days back as the days' numbers. -/
theorem humanWeekdaysToKube_labels :
    humanWeekdaysToKube (String.mk (joinWith ',' (M.map dayLabel))) = .ok (joinInts (dedup M)) := by
  have hchars := labels_chars hM
  have hne' : joinWith ',' (M.map dayLabel) ≠ [] := by
    obtain ⟨n, ns, rfl⟩ := List.exists_cons_of_ne_nil hne
    exact joinWith_ne_nil (dayLabel_weekday (hM n (List.mem_cons_self n ns)).1
      (hM n (List.mem_cons_self n ns)).2).2.1
  have hnum : numericFullmatch (joinWith ',' (M.map dayLabel)) = false := by
    rw [numericFullmatch, List.filter_eq_self.2 fun c hc => by simp [(hchars c hc).1]]
    exact digitChain_of_no_digit fun c hc => (hchars c hc).2.2
  have hblank : (joinWith ',' (M.map dayLabel)).filter (· != ' ') = joinWith ',' (M.map dayLabel) :=
    List.filter_eq_self.2 fun c hc => by simp [(hchars c hc).2.1]
  have hpieces : (M.map fun n => stripAccents (lower (dayLabel n))).filter (· != []) =
      M.map fun n => stripAccents (lower (dayLabel n)) :=
    List.filter_eq_self.2 fun w hw => by
      obtain ⟨n, hn, rfl⟩ := List.mem_map.1 hw
      simpa using (dayLabel_weekday (hM n hn).1 (hM n hn).2).2.2.1
  have hext := extendAll_map_ok (f := partDays) (k := fun n => stripAccents (lower (dayLabel n)))
    (g := fun n => [n]) fun n hn => (dayLabel_weekday (hM n hn).1 (hM n hn).2).2.2.2.1
  have htl : (String.mk (joinWith ',' (M.map dayLabel))).toList = joinWith ',' (M.map dayLabel) := rfl
  simp only [humanWeekdaysToKube, htl, strip_eq_self fun c hc => (hchars c hc).1, hne', if_false,
    hnum, Bool.false_eq_true, filter_lower, hblank,
    fold_splitOn (show (',' : Char).toNat < 65 by decide) (show ',' ∉ latin1Bases by decide),
    labels_splitOn hM hne, List.map_map, Function.comp_def, hpieces, hext, List.flatMap_singleton']
  rfl

end Labels
/-! ## Numeric specs -/

/-- `kubeWeekdaysToHuman` of a text without whitespace whose chunks give the days `T`. -/
theorem kubeWeekdaysToHuman_eq {t : List Char} {T : List Int} (hne : t ≠ [])
    (hws : ∀ c ∈ t, isPySpace c = false)
    (hT : extendAll (fun chunk => chunkDays (strip chunk)) (t.splitOn ',') = .ok T) :
    kubeWeekdaysToHuman (String.mk t) = .ok (String.mk (joinWith ',' ((dedup T).map dayLabel))) := by
  have htl : (String.mk t).toList = t := rfl
  simp only [kubeWeekdaysToHuman, htl, strip_eq_self hws, hne, if_false, hT]
  rfl

/-- `kubeWeekdaysToHuman` reads the chunks of a text made of non-empty items of the language as
the items' days. -/
theorem extendAll_chunkDays_strip {P : List (List Char)} {D : List Nat}
    (hP : ∀ w ∈ P, w ≠ [] ∧ ∀ c ∈ w, c.toNat < 65 ∧ isPySpace c = false)
    (hD : itemsDays P = some D) :
    extendAll (fun chunk => chunkDays (strip chunk)) P = .ok (D.map Int.ofNat) := by
  rw [← extendAll_chunkDays (fun w hw => (hP w hw).2)
    (by rwa [List.filter_eq_self.2 fun w hw => by simpa using (hP w hw).1])]
  refine extendAll_congr fun w hw => ?_
  rw [strip_eq_self fun c hc => ((hP w hw).2 c hc).2, if_neg (hP w hw).1]

/-- The items of a list each of which the language reads give the days of the list. -/
theorem itemsDays_of_forall : ∀ {P : List (List Char)}, (∀ w ∈ P, ∃ a, itemDays w = some a) →
    ∃ D, itemsDays P = some D
  | [], _ => ⟨[], rfl⟩
  | w :: P, h => by
    obtain ⟨a, ha⟩ := h w (List.mem_cons_self w P)
    obtain ⟨b, hb⟩ := itemsDays_of_forall fun v hv => h v (List.mem_cons_of_mem w hv)
    exact ⟨a ++ b, itemsDays_cons_eq_some.2 ⟨a, b, ha, hb, rfl⟩⟩

/-- An item of a canonical numeric spec is a non-empty item of the language, of digits and a
dash. -/
theorem isKubeItem_spec {w : List Char} (h : isKubeItem w = true) :
    w ≠ [] ∧ (∀ c ∈ w, isAsciiDigit c = true ∨ c = '-' ∨ c = ',') ∧ ∃ a, itemDays w = some a := by
  have hdig : ∀ {d : Char}, isDayDigit d = true → isAsciiDigit d = true ∧ d ≠ '-' := fun hd => by
    simp only [isDayDigit, isAsciiDigit, Bool.and_eq_true, decide_eq_true_eq] at hd ⊢
    exact ⟨⟨hd.1, by omega⟩, fun h => by rw [h] at hd; simp at hd⟩
  unfold isKubeItem at h
  split at h
  · rename_i d
    have hs : [d].splitOn '-' = [[d]] := by simp [List.splitOn, List.splitOnP_cons, (hdig h).2]
    exact ⟨by simp, by simp [(hdig h).1], [d.toNat - 48], by simp [itemDays, hs, atomDay, h]⟩
  · rename_i d e
    simp only [Bool.and_eq_true] at h
    have hs : [d, '-', e].splitOn '-' = [[d], [e]] := by
      simp [List.splitOn, List.splitOnP_cons, (hdig h.1).2, (hdig h.2).2]
    refine ⟨by simp, ?_, circularRange (d.toNat - 48) (e.toNat - 48),
      by simp [itemDays, hs, atomDay, h.1, h.2]⟩
    simp [(hdig h.1).1, (hdig h.2).1]
  · cases h

/-- A canonical numeric spec: non-empty, of code points below `A` that are neither whitespace
nor letters, split into non-empty items that the language reads. -/
theorem isCanonicalKube_spec {k : String} (hk : isCanonicalKube k = true) :
    k.toList ≠ [] ∧
      (∀ c ∈ k.toList, c.toNat < 65 ∧ isPySpace c = false ∧ isSpanishLetter c = false) ∧
      (∀ w ∈ k.toList.splitOn ',', w ≠ []) ∧ ∃ D, itemsDays (k.toList.splitOn ',') = some D := by
  have hitems : ∀ w ∈ k.toList.splitOn ',', isKubeItem w = true := List.all_eq_true.1 hk
  refine ⟨fun h0 => ?_, fun c hc => ?_, fun w hw => (isKubeItem_spec (hitems w hw)).1,
    itemsDays_of_forall fun w hw => (isKubeItem_spec (hitems w hw)).2.2⟩
  · have := hitems [] (by rw [h0]; exact List.mem_singleton_self [])
    cases this
  · rw [← List.intercalate_splitOn k.toList ','] at hc
    exact chainChar_lt (forall_mem_joinWith (P := fun c => isAsciiDigit c = true ∨ c = '-' ∨ c = ',')
      (.inr (.inr rfl)) (fun w hw => (isKubeItem_spec (hitems w hw)).2.1) c hc)

/-- The comma-separated pieces of a text matching `\d(?:[-,]\d)*` are not empty. -/
theorem digitChain_splitOn : ∀ {t : List Char}, digitChain t = true → ∀ w ∈ t.splitOn ',', w ≠ []
  | [d], h, w, hw => by
    have hd : d ≠ ',' := fun he => by rw [he] at h; cases h
    simp only [List.splitOn, List.splitOnP_cons, beq_iff_eq, hd, if_false, List.splitOnP_nil,
      List.modifyHead_cons, List.mem_singleton] at hw
    simp [hw]
  | d :: x :: rest, h, w, hw => by
    simp only [digitChain, Bool.and_eq_true, Bool.or_eq_true, beq_iff_eq] at h
    obtain ⟨⟨hd, hx⟩, hr⟩ := h
    have hd' : d ≠ ',' := fun he => by rw [he] at hd; cases hd
    obtain ⟨r, rs, hrs⟩ := List.exists_cons_of_ne_nil (List.splitOnP_ne_nil (· == ',') rest)
    have hrs' : rest.splitOn ',' = r :: rs := hrs
    rcases hx with rfl | rfl
    · have hsplit : (d :: '-' :: rest).splitOn ',' = (d :: '-' :: r) :: rs := by
        simp only [List.splitOn, List.splitOnP_cons, beq_iff_eq, hd', if_false] at hrs ⊢
        rw [if_neg (by decide), hrs]
        rfl
      rw [hsplit] at hw
      rcases List.mem_cons.1 hw with rfl | hw
      · simp
      · exact digitChain_splitOn hr w (hrs' ▸ List.mem_cons_of_mem r hw)
    · have hsplit : (d :: ',' :: rest).splitOn ',' = [d] :: rest.splitOn ',' := by
        simp [List.splitOn, List.splitOnP_cons, hd']
      rw [hsplit] at hw
      rcases List.mem_cons.1 hw with rfl | hw
      · simp
      · exact digitChain_splitOn hr w hw
  | [], h, _, _ => by cases h

/-- What `humanWeekdaysToKube` hands on for a spec of the language with an item: a non-empty
text without whitespace whose chunks `kubeWeekdaysToHuman` reads as the spec's days. -/
theorem humanWeekdaysToKube_tokens {s r : String} {D : List Nat} (hD : weekdaySpecDays s = some D)
    (hitems : specItems s ≠ []) (hr : humanWeekdaysToKube s = .ok r) :
    ∃ T, r.toList ≠ [] ∧ (∀ c ∈ r.toList, isPySpace c = false) ∧
      extendAll (fun chunk => chunkDays (strip chunk)) (r.toList.splitOn ',') = .ok T ∧
      ∀ n, n ∈ T ↔ n ∈ D.map Int.ofNat := by
  obtain ⟨hws, hD'⟩ := weekdaySpecDays_cases hD
  replace hD := (hD'.resolve_left fun h => hitems h.1).2
  obtain ⟨hst, hsw⟩ := strip_filter_of_spec hws
  have hdef : specItems s = ((s.toList.filter (· != ' ')).splitOn ',').filter (· != []) := rfl
  simp only [humanWeekdaysToKube] at hr
  split_ifs at hr with h0 hnum
  · -- a blank spec has no item
    rw [h0, List.filter_nil] at hst
    exact absurd (by rw [hdef, ← hst]; rfl) hitems
  · -- the numeric path hands on the spec without its blanks
    cases hr
    rw [numericFullmatch, hsw] at hnum
    obtain ⟨hc, c, cs, hcs, -⟩ := digitChain_spec hnum
    have hpieces := digitChain_splitOn hnum
    rw [hdef, List.filter_eq_self.2 fun w hw => by simpa using hpieces w hw] at hD
    refine ⟨D.map Int.ofNat, ?_, ?_, ?_, fun n => Iff.rfl⟩ <;> rw [show (String.mk _).toList =
      (strip s.toList).filter (· != ' ') from rfl, hst]
    · rw [hcs]
      exact List.cons_ne_nil c cs
    · exact fun c h => (hc c h).2.1
    · exact extendAll_chunkDays_strip (fun w hw => ⟨hpieces w hw, fun c hcw =>
        ⟨(hc c (mem_of_mem_splitOn hw hcw)).1, (hc c (mem_of_mem_splitOn hw hcw)).2.1⟩⟩) hD
  · -- the name path hands on the days it read, each once
    obtain ⟨nums, hnums, hr⟩ := bind_eq_ok.1 hr
    cases hr
    rw [filter_lower, hst, fold_splitOn (show (',' : Char).toNat < 65 by decide)
      (show ',' ∉ latin1Bases by decide)] at hnums
    rw [hdef] at hD hitems
    rw [extendAll_partDays hD hnums]
    have hM := mem_dedup_ofNat (itemsDays_spec hD).2
    have hMne : dedup (D.map Int.ofNat) ≠ [] :=
      dedup_ne_nil (by simpa using (itemsDays_spec hD).1 hitems)
    obtain ⟨hchars, hsplit⟩ := joinInts_weekdays hM
    refine ⟨dedup (D.map Int.ofNat), fun h => joinInts_ne_empty hMne hM (String.ext h),
      fun c h => (hchars c h).1, ?_, fun n => mem_dedup⟩
    rw [hsplit hMne, extendAll_map_ok (g := fun n => [n]) fun n hn => ?_, List.flatMap_singleton']
    obtain ⟨hne', -, hc, hdays⟩ := toString_weekday (hM n hn).1 (hM n hn).2
    rw [strip_eq_self fun c h => (hc c h).1, hdays]

/-! ## The round trip -/

/-- A canonical numeric spec comes back from its labels with the same days. -/
theorem kubeWeekdaysToHuman_canonical {k : String} (hk : isCanonicalKube k = true) :
    ∃ h r L, kubeWeekdaysToHuman k = .ok h ∧ humanWeekdaysToKube h = .ok r ∧
      expandWeekdaysStr r = .ok L ∧ expandWeekdaysStr k = .ok L := by
  obtain ⟨hne, hc, hpieces, D, hD⟩ := isCanonicalKube_spec hk
  have hT := extendAll_chunkDays_strip (fun w hw => ⟨hpieces w hw, fun c hcw =>
    ⟨(hc c (mem_of_mem_splitOn hw hcw)).1, (hc c (mem_of_mem_splitOn hw hcw)).2.1⟩⟩) hD
  have hM := mem_dedup_ofNat (itemsDays_spec hD).2
  have hMne : dedup (D.map Int.ofNat) ≠ [] :=
    dedup_ne_nil (by simpa using (itemsDays_spec hD).1 (List.splitOnP_ne_nil _ _))
  refine ⟨_, _, _, kubeWeekdaysToHuman_eq hne (fun c h => (hc c h).2.1) hT,
    humanWeekdaysToKube_labels hM hMne, expandWeekdaysStr_joinInts (dedup_ne_nil hMne)
      (fun n hn => hM n (mem_dedup.1 hn)), ?_⟩
  rw [dedup_dedup, dedup_dedup]
  exact expandWeekdaysStr_numeric hne hc (by rwa [List.filter_eq_self.2 fun w hw => by
    simpa using hpieces w hw])

/-- The labels `kubeWeekdaysToHuman` gives the output of `humanWeekdaysToKube` on a spec with an
item name the spec's days, each once. -/
theorem kubeWeekdaysToHuman_of_spec {s r : String} {D : List Nat}
    (hD : weekdaySpecDays s = some D) (hitems : specItems s ≠ []) (hr : humanWeekdaysToKube s = .ok r) :
    ∃ (h : String) (L : List Nat), kubeWeekdaysToHuman r = .ok h ∧ (h.toList.splitOn ',').map nameDay = L.map some ∧
      L.Nodup ∧ ∀ d, d ∈ L ↔ d ∈ D := by
  obtain ⟨T, hne, hws, hT, hmem⟩ := humanWeekdaysToKube_tokens hD hitems hr
  have hT7 : ∀ n ∈ dedup T, 0 ≤ n ∧ n < 7 := fun n hn => by
    obtain ⟨d, hd, rfl⟩ := List.mem_map.1 ((hmem n).1 (mem_dedup.1 hn))
    have := (weekdaySpecDays_spec hD).2 d hd
    simp only [Int.ofNat_eq_coe]
    omega
  have hTne : dedup T ≠ [] := by
    obtain ⟨d, hd⟩ := List.exists_mem_of_ne_nil _ (weekdaySpecDays_spec hD).1
    exact List.ne_nil_of_mem (mem_dedup.2 ((hmem d).2 (List.mem_map_of_mem _ hd)))
  refine ⟨_, (dedup T).map Int.toNat, kubeWeekdaysToHuman_eq hne hws hT, ?_, ?_, fun d => ?_⟩
  · have htl : (String.mk (joinWith ',' ((dedup T).map dayLabel))).toList =
        joinWith ',' ((dedup T).map dayLabel) := rfl
    rw [htl, nameDay_labels hT7 hTne, List.map_map]
    rfl
  · exact nodup_dedup.map_on fun x hx y hy h => by
      have := hT7 x hx
      have := hT7 y hy
      omega
  · simp only [List.mem_map, mem_dedup, hmem]
    constructor
    · rintro ⟨n, ⟨e, he, rfl⟩, rfl⟩
      simpa using he
    · exact fun hd => ⟨d, ⟨d, hd, rfl⟩, rfl⟩

/-- Labels and numbers round trip: a canonical numeric spec, shown by `kubeWeekdaysToHuman` and
read back by `humanWeekdaysToKube`, expands to its own days; and what `humanWeekdaysToKube`
makes of a spec of the language with an item is shown as names of the spec's days, each once. -/
theorem weekdays_display_round_trip :
    (∀ k, isCanonicalKube k = true →
      ∃ h r L, kubeWeekdaysToHuman k = .ok h ∧ humanWeekdaysToKube h = .ok r ∧
        expandWeekdaysStr r = .ok L ∧ expandWeekdaysStr k = .ok L) ∧
    (∀ s r D, weekdaySpecDays s = some D → specItems s ≠ [] → humanWeekdaysToKube s = .ok r →
      ∃ (h : String) (L : List Nat), kubeWeekdaysToHuman r = .ok h ∧ (h.toList.splitOn ',').map nameDay = L.map some ∧
        L.Nodup ∧ ∀ d, d ∈ L ↔ d ∈ D) :=
  ⟨fun _ hk => kubeWeekdaysToHuman_canonical hk, fun _ _ _ hD hitems hr =>
    kubeWeekdaysToHuman_of_spec hD hitems hr⟩

/-- The round trip at the spec's example `5-0` and at the spec `sábado-lunes`. -/
theorem weekdays_display_round_trip_weekend :
    (∃ h r L, kubeWeekdaysToHuman "5-0" = .ok h ∧ humanWeekdaysToKube h = .ok r ∧
        expandWeekdaysStr r = .ok L ∧ expandWeekdaysStr "5-0" = .ok L) ∧
    (∃ (h : String) (L : List Nat), kubeWeekdaysToHuman "6,0,1" = .ok h ∧ (h.toList.splitOn ',').map nameDay = L.map some ∧
        L.Nodup ∧ ∀ d, d ∈ L ↔ d ∈ [6, 0, 1]) :=
  ⟨weekdays_display_round_trip.1 "5-0" (by decide),
    weekdays_display_round_trip.2 "sábado-lunes" "6,0,1" [6, 0, 1] (by decide) (by decide) rfl⟩

end TenantPower
