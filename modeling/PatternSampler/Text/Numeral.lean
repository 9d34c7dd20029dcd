/-!
# Numerals

Numbers as the library writes them: decimal, optionally filled up with zeros, and hexadecimal in
either case.
-/
set_option autoImplicit false

namespace PatternSampler.Text

/-- `n` in the given base, with at least `width` digits. -/
def padded (base width n : Nat) : String :=
  let digits := Nat.toDigits base n
  String.ofList (List.replicate (width - digits.length) '0' ++ digits)

/-- The decimal numeral of a natural number. -/
def decimal (n : Nat) : String := String.ofList (Nat.toDigits 10 n)

/-- The decimal numeral of an integer, with a minus sign below zero. -/
def signed : Int → String
  | .ofNat n => decimal n
  | .negSucc n => "-" ++ decimal (n + 1)

/-- The hexadecimal numeral of `n` in lower case, without padding. -/
def hex (n : Nat) : String := String.ofList (Nat.toDigits 16 n)

/-- The hexadecimal numeral of `n` in upper case, with at least four digits. -/
def hexUpper4 (n : Nat) : String :=
  String.ofList ((padded 16 4 n).toList.map Char.toUpper)

/-- `text` filled up with blanks on the right to `width` characters. -/
def leftAligned (width : Nat) (text : String) : String :=
  text ++ String.ofList (List.replicate (width - text.length) ' ')

/-- The value of a hexadecimal digit. -/
def hexDigit? (c : Char) : Option Nat :=
  if '0' ≤ c ∧ c ≤ '9' then some (c.toNat - 48)
  else if 'a' ≤ c ∧ c ≤ 'f' then some (c.toNat - 87)
  else if 'A' ≤ c ∧ c ≤ 'F' then some (c.toNat - 55)
  else none

/-- Whether a character is a hexadecimal digit. -/
def isHexDigit (c : Char) : Bool := (hexDigit? c).isSome

/-- The value of a run of hexadecimal digits, most significant first. -/
def ofHexDigits (cs : List Char) : Nat :=
  cs.foldl (fun n c => 16 * n + (hexDigit? c).getD 0) 0

/-- The value of a run of decimal digits, most significant first. -/
def ofDigits (cs : List Char) : Nat :=
  cs.foldl (fun n c => 10 * n + (c.toNat - 48)) 0

/-- The character with code point `n`, if `n` is a Unicode scalar value. -/
def scalar? (n : Nat) : Option Char :=
  if n.isValidChar then some (Char.ofNat n) else none

theorem scalar?_toNat (c : Char) : scalar? c.toNat = some c := by
  have hvalid : c.toNat.isValidChar := c.valid
  rw [scalar?, if_pos hvalid, Char.ofNat_toNat]

/-! ## Runs of digits -/

theorem le_foldl_ofDigits (cs : List Char) (n : Nat) :
    n ≤ cs.foldl (fun n c => 10 * n + (c.toNat - 48)) n := by
  induction cs generalizing n with
  | nil => exact Nat.le_refl n
  | cons c cs ih => exact Nat.le_trans (by omega) (ih (10 * n + (c.toNat - 48)))

/-- A number that starts with a digit other than zero is at least one. -/
theorem one_le_ofDigits {c : Char} (hc : '1' ≤ c) (cs : List Char) :
    1 ≤ ofDigits (c :: cs) := by
  have hdigit : 49 ≤ c.toNat := hc
  rw [ofDigits, List.foldl_cons]
  exact Nat.le_trans (by omega) (le_foldl_ofDigits cs _)

theorem ofDigits_toDigits (n : Nat) : ofDigits (Nat.toDigits 10 n) = n :=
  Nat.ofDigitChars_ten_toDigits

theorem takeWhile_toDigits (n : Nat) {rest : List Char}
    (hrest : ∀ c ∈ rest.head?, c.isDigit = false) :
    (Nat.toDigits 10 n ++ rest).takeWhile (·.isDigit) = Nat.toDigits 10 n := by
  have hdigits : ∀ c ∈ Nat.toDigits 10 n, c.isDigit = true := fun c hc =>
    Nat.isDigit_of_mem_toDigits (by decide) (by decide) hc
  rw [List.takeWhile_append_of_pos hdigits]
  cases rest with
  | nil => simp
  | cons c rest => simp [hrest c rfl]

theorem isDigit_of_one_le {c : Char} (hone : '1' ≤ c) (hnine : c ≤ '9') : c.isDigit = true := by
  simp only [Char.isDigit, Bool.and_eq_true, decide_eq_true_eq]
  exact ⟨Nat.le_trans (by decide : (48 : Nat) ≤ 49) hone, hnine⟩

theorem isAlphanum_of_isHexDigit {d : Char} (h : isHexDigit d = true) :
    d.isAlphanum = true := by
  refine Bool.or_eq_true_iff.mpr ?_
  unfold isHexDigit hexDigit? at h
  split at h
  · rename_i hdigit
    exact .inr (Bool.and_eq_true_iff.mpr
      ⟨decide_eq_true hdigit.1, decide_eq_true hdigit.2⟩)
  split at h
  · rename_i hlower
    have hlast : d.val ≤ 'z'.val := Nat.le_trans hlower.2 (by decide : (102 : Nat) ≤ 122)
    exact .inl (Bool.or_eq_true_iff.mpr
      (.inr (Bool.and_eq_true_iff.mpr ⟨decide_eq_true hlower.1, decide_eq_true hlast⟩)))
  split at h
  · rename_i hupper
    have hlast : d.val ≤ 'Z'.val := Nat.le_trans hupper.2 (by decide : (70 : Nat) ≤ 90)
    exact .inl (Bool.or_eq_true_iff.mpr (.inl (decide_eq_true ⟨hupper.1, hlast⟩)))
  · simp at h

/-- The numeral of a positive number starts with a digit other than zero. -/
theorem exists_toDigits_eq_cons {n : Nat} (hn : 1 ≤ n) :
    ∃ c cs, Nat.toDigits 10 n = c :: cs ∧ '1' ≤ c ∧ c ≤ '9' := by
  induction n using Nat.strongRecOn with
  | ind n ih =>
    rw [Nat.toDigits_eq_if (by decide)]
    split
    · rename_i hlt
      have hdigit : ∀ d < 10, 1 ≤ d → '1' ≤ d.digitChar ∧ d.digitChar ≤ '9' := by decide
      exact ⟨_, [], rfl, hdigit n hlt hn⟩
    · obtain ⟨c, cs, hcs, hc⟩ := ih (n / 10) (by omega) (by omega)
      exact ⟨c, cs ++ [(n % 10).digitChar], by rw [hcs]; rfl, hc⟩

theorem hexDigit?_digitChar {d : Nat} (hd : d < 16) : hexDigit? d.digitChar = some d := by
  revert d
  decide

theorem toNat_lt_of_isAlphanum {c : Char} (h : c.isAlphanum = true) : c.toNat < 256 := by
  have hlast : c.val ≤ 'z'.val := by
    rcases Bool.or_eq_true_iff.mp h with halpha | hdigit
    · rcases Bool.or_eq_true_iff.mp halpha with hupper | hlower
      · have hupper : 'A'.val ≤ c.val ∧ c.val ≤ 'Z'.val := of_decide_eq_true hupper
        exact Nat.le_trans hupper.2 (by decide)
      · exact of_decide_eq_true (Bool.and_eq_true_iff.mp hlower).2
    · have hdigit : c.val ≤ '9'.val := of_decide_eq_true (Bool.and_eq_true_iff.mp hdigit).2
      exact Nat.le_trans hdigit (by decide)
  exact Nat.lt_of_le_of_lt hlast (by decide)

/-- A byte has a numeral of two hexadecimal digits. -/
theorem exists_hexDigits {n : Nat} (hn : n < 256) :
    ∃ digits, digits.length = 2 ∧ (∀ d ∈ digits, isHexDigit d = true) ∧ ofHexDigits digits = n := by
  have hhigh := @hexDigit?_digitChar (n / 16) (by omega)
  have hlow := @hexDigit?_digitChar (n % 16) (by omega)
  refine ⟨[(n / 16).digitChar, (n % 16).digitChar], rfl, ?_, ?_⟩
  · simp [isHexDigit, hhigh, hlow]
  · simp only [ofHexDigits, List.foldl_cons, List.foldl_nil, hhigh, hlow, Option.getD_some]
    omega

end PatternSampler.Text
