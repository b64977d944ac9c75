import TenantPower.Weekdays
import Mathlib.Tactic.IntervalCases

/-!
# Proofs: the `str` builtins

The facts about `strip`, `split` and `join` that the weekday proofs use: `strip` leaves a text
without whitespace alone and removes only whitespace, `split` commutes with a code point map that
fixes the separator, and `str` writes a day number `0`–`6` as one digit that `int` reads back.
The `Except` blocks of the weekday functions are taken apart with `bind_eq_ok` and
`bind_eq_error`.
-/

namespace TenantPower

/-- `strip` leaves a text without whitespace as it is. -/
theorem strip_eq_self {s : List Char} (h : ∀ c ∈ s, isPySpace c = false) : strip s = s := by
  have hd : s.dropWhile isPySpace = s := by
    cases s with
    | nil => rfl
    | cons c cs => simp [List.dropWhile_cons, h c (List.mem_cons_self c cs)]
  rw [strip, hd, List.rdropWhile_eq_self_iff]
  intro hs
  simp [h _ (List.getLast_mem hs)]

/-- Dropping a prefix of code points that a filter removes anyway does not change the filter. -/
theorem filter_dropWhile {p q : Char → Bool} :
    ∀ {l : List Char}, (∀ c ∈ l, p c = true → q c = false) → (l.dropWhile p).filter q = l.filter q
  | [], _ => rfl
  | c :: cs, h => by
    have ih := filter_dropWhile fun x hx => h x (List.mem_cons_of_mem c hx)
    by_cases hc : p c = true
    · simp [List.dropWhile_cons, hc, ih, h c (List.mem_cons_self c cs) hc]
    · simp [List.dropWhile_cons, hc]

/-- `strip` removes nothing that a filter keeps when the filter drops all whitespace. -/
theorem filter_strip {q : Char → Bool} {s : List Char}
    (h : ∀ c ∈ s, isPySpace c = true → q c = false) : (strip s).filter q = s.filter q := by
  have hd : ∀ c ∈ (s.dropWhile isPySpace).reverse, isPySpace c = true → q c = false :=
    fun c hc => h c ((List.dropWhile_suffix _).subset (List.mem_reverse.1 hc))
  rw [strip, List.rdropWhile, List.filter_reverse, filter_dropWhile hd, List.filter_reverse,
    List.reverse_reverse, filter_dropWhile h]

/-- A text that `strip` empties is whitespace. -/
theorem strip_eq_nil {s : List Char} (h : strip s = []) : ∀ c ∈ s, isPySpace c = true := by
  have hf := filter_strip (q := fun c => !isPySpace c) (s := s) fun c _ hc => by simp [hc]
  rw [h, List.filter_nil, eq_comm, List.filter_eq_nil_iff] at hf
  simpa using hf

/-- `int` of one ASCII digit. -/
theorem pyInt_digit {c : Char} (hc : isAsciiDigit c = true) :
    pyInt [c] = .ok ((c.toNat - 48 : Nat) : Int) := by
  have hs : isPySpace c = false := by
    simp only [isAsciiDigit, Bool.and_eq_true, decide_eq_true_eq] at hc
    simp only [isPySpace]
    simp
    omega
  have hl : intLiteral [c] = some ((c.toNat - 48 : Nat) : Int) := by
    unfold intLiteral
    rw [strip_eq_self (by simpa using hs)]
    split
    · rename_i ds h; simp at h; obtain ⟨rfl, -⟩ := h; simp [isAsciiDigit] at hc
    · rename_i ds h; simp at h; obtain ⟨rfl, -⟩ := h; simp [isAsciiDigit] at hc
    · simp [readNat, hc, readDigits]
  simp [pyInt, hl]

/-! ## `Except` -/

/-- A step that succeeds hands its value on. -/
@[simp] theorem ok_bind {ε α β : Type} (a : α) (f : α → Except ε β) : (Except.ok a >>= f) = f a :=
  rfl

/-- A `do` block succeeds when its first step does and the rest does on that step's value. -/
theorem bind_eq_ok {ε α β : Type} {x : Except ε α} {f : α → Except ε β} {b : β} :
    x >>= f = .ok b ↔ ∃ a, x = .ok a ∧ f a = .ok b := by
  cases x <;> simp [bind, Except.bind]

/-- A `do` block fails when its first step does, or when the rest fails on that step's value. -/
theorem bind_eq_error {ε α β : Type} {x : Except ε α} {f : α → Except ε β} {e : ε} :
    x >>= f = .error e ↔ x = .error e ∨ ∃ a, x = .ok a ∧ f a = .error e := by
  cases x <;> simp [bind, Except.bind]

/-- Rewriting the error of a step keeps its value. -/
theorem mapError_eq_ok {ε ε' α : Type} {f : ε → ε'} {x : Except ε α} {a : α} :
    x.mapError f = .ok a ↔ x = .ok a := by
  cases x <;> simp [Except.mapError]

/-- `extendAll` fails with the error of the first element `f` fails on. -/
theorem extendAll_eq_error {f : List Char → Except String (List Int)} {m : String} :
    ∀ {xs : List (List Char)}, extendAll f xs = .error m →
      ∃ pre x post, xs = pre ++ x :: post ∧ (∀ y ∈ pre, ∃ a, f y = .ok a) ∧ f x = .error m
  | [], h => by cases h
  | x :: xs, h => by
    simp only [extendAll, bind_eq_error] at h
    rcases h with hx | ⟨a, ha, h⟩
    · exact ⟨[], x, xs, rfl, fun y hy => absurd hy (List.not_mem_nil y), hx⟩
    · rcases h with h | ⟨b, -, h⟩
      · obtain ⟨pre, y, post, rfl, hpre, hy⟩ := extendAll_eq_error h
        refine ⟨x :: pre, y, post, rfl, fun z hz => ?_, hy⟩
        rcases List.mem_cons.1 hz with rfl | hz
        · exact ⟨a, ha⟩
        · exact hpre z hz
      · cases h

/-- `extendAll` succeeds on a list when `f` does on its head and `extendAll` on its tail. -/
theorem extendAll_cons_eq_ok {f : List Char → Except String (List Int)} {x : List Char}
    {xs : List (List Char)} {r : List Int} :
    extendAll f (x :: xs) = .ok r ↔ ∃ a b, f x = .ok a ∧ extendAll f xs = .ok b ∧ r = a ++ b := by
  simp only [extendAll, bind_eq_ok]
  constructor
  · rintro ⟨a, ha, b, hb, h⟩
    exact ⟨a, b, ha, hb, (Except.ok.inj h).symm⟩
  · rintro ⟨a, b, ha, hb, rfl⟩
    exact ⟨a, ha, b, hb, rfl⟩

/-- `extendAll` with two functions that agree on the list. -/
theorem extendAll_congr {f g : List Char → Except String (List Int)} :
    ∀ {xs : List (List Char)}, (∀ x ∈ xs, f x = g x) → extendAll f xs = extendAll g xs
  | [], _ => rfl
  | x :: xs, h => by
    simp only [extendAll, h x (List.mem_cons_self x xs),
      extendAll_congr fun y hy => h y (List.mem_cons_of_mem x hy)]

/-- The pieces of `l.map f` split at `sep` are those of `l`, mapped, when `f` sends exactly `sep`
to `sep`. -/
theorem splitOn_map {sep : Char} (f : Char → Char) (hf : ∀ c, f c = sep ↔ c = sep) :
    ∀ l : List Char, (l.map f).splitOn sep = (l.splitOn sep).map (List.map f)
  | [] => rfl
  | c :: cs => by
    have ih := splitOn_map f hf cs
    simp only [List.splitOn, List.map_cons, List.splitOnP_cons] at ih ⊢
    by_cases hc : c = sep
    · simp [hc, (hf sep).2 rfl, ih]
    · have hfc : ¬ f c = sep := fun h => hc ((hf c).1 h)
      simp only [beq_iff_eq, hfc, hc, if_false, ih]
      obtain ⟨w, ws, hw⟩ := List.exists_cons_of_ne_nil (List.splitOnP_ne_nil (· == sep) cs)
      rw [hw]
      rfl

/-- Dropping code points other than `sep` commutes with splitting at `sep`. -/
theorem splitOn_filter {sep : Char} (p : Char → Bool) (hp : p sep = true) :
    ∀ l : List Char, (l.filter p).splitOn sep = (l.splitOn sep).map (List.filter p)
  | [] => rfl
  | c :: cs => by
    have ih := splitOn_filter p hp cs
    simp only [List.splitOn, List.splitOnP_cons, List.filter_cons] at ih ⊢
    by_cases hc : c = sep
    · simp [hc, hp, ih]
    · obtain ⟨w, ws, hw⟩ := List.exists_cons_of_ne_nil (List.splitOnP_ne_nil (· == sep) cs)
      by_cases hpc : p c = true
      · simp only [hpc, if_true, List.splitOnP_cons, beq_iff_eq, hc, if_false, ih, hw]
        simp [hpc]
      · simp only [hpc, if_false, Bool.false_eq_true, beq_iff_eq, hc, ih, hw]
        simp [hpc]

/-- `extendAll` over the pieces `k a`, `a ∈ xs`, on each of which `f` succeeds with `g a`. -/
theorem extendAll_map_ok {α : Type} {f : List Char → Except String (List Int)}
    {k : α → List Char} {g : α → List Int} :
    ∀ {xs : List α}, (∀ a ∈ xs, f (k a) = .ok (g a)) → extendAll f (xs.map k) = .ok (xs.flatMap g)
  | [], _ => rfl
  | a :: xs, h => by
    simp only [List.map_cons, extendAll, h a (List.mem_cons_self a xs),
      extendAll_map_ok fun b hb => h b (List.mem_cons_of_mem a hb)]
    rfl

/-- `str(n)` of a day number is one digit, which `int` and `chunkDays` read back. -/
theorem toString_weekday {n : Int} (h0 : 0 ≤ n) (h7 : n < 7) :
    (toString n).toList ≠ [] ∧ ',' ∉ (toString n).toList ∧
      (∀ c ∈ (toString n).toList, isPySpace c = false ∧ isSpanishLetter c = false) ∧
      chunkDays (toString n).toList = .ok [n] := by
  interval_cases n <;> exact ⟨by decide, by decide, by decide, rfl⟩

end TenantPower
