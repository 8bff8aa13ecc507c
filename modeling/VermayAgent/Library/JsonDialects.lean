import VermayAgent.Library.Binary64
import VermayAgent.Library.JsonRoundTrip

/-! The numbers of JSON in Python and in JavaScript. -/
namespace VermayAgent.Library

theorem NumberToken.magnitude_nonneg (t : NumberToken) : 0 ≤ t.magnitude := by
  unfold magnitude
  positivity

/-- `float` of a numeral. -/
def NumberToken.float (t : NumberToken) : Float64 :=
  .round t.negative t.magnitude t.magnitude_nonneg

theorem Magnitude.float_token (negative : Bool) (m : Magnitude) :
    (m.token negative).float = .finite negative m := by
  rw [NumberToken.float,Float64.round_of_rounds _ (m.token_rounds negative),m.token_negative]

/-- The double nearest to an integer. -/
def Float64.ofInt (n : ℤ) : Float64 := .round (decide (n < 0)) n.natAbs (by positivity)

theorem NumberToken.float_ofInt (n : ℤ) : (NumberToken.ofInt n).float = Float64.ofInt n := by
  unfold NumberToken.float Float64.ofInt
  congr 1
  exact magnitude_ofInt n

/-- The value of a finite double. -/
def Float64.value : Float64 → Option ℚ
  | .finite negative m => some (if negative then -m.val else m.val)
  | .infinite _ | .nan => none

/-- Integers of up to 53 binary places are doubles. -/
theorem Float64.ofInt_value {n : ℤ} (hn : n.natAbs ≤ 2^53) :
    (Float64.ofInt n).value = some (n : ℚ) := by
  have hround : roundMagnitude n.natAbs = n.natAbs := by
    have hplaces := @roundMagnitude_of_places n.natAbs 0 hn (by norm_num)
    simpa using hplaces
  have hlt : roundMagnitude n.natAbs < 2^1024 := by
    rw [hround]
    calc (n.natAbs : ℚ) ≤ 2^53 := by exact_mod_cast hn
      _ < 2^1024 := pow_lt_pow_right₀ (by norm_num) (by norm_num)
  rw [Float64.ofInt,Float64.round,dif_pos hlt]
  simp only [Float64.value,hround,decide_eq_true_eq]
  rw [Nat.cast_natAbs]
  split
  · rename_i hneg
    rw [abs_of_neg hneg]
    simp
  · rename_i hpos
    rw [abs_of_nonneg (not_lt.mp hpos)]

/-- `<`, false for what is not a number. -/
def Float64.lt : Float64 → Float64 → Bool
  | .nan, _ | _, .nan => false
  | .infinite negative, .infinite negative' => negative && !negative'
  | .infinite negative, .finite _ _ => negative
  | .finite _ _, .infinite negative => !negative
  | .finite negative m, .finite negative' m' =>
    decide ((if negative then -m.val else m.val) < if negative' then -m'.val else m'.val)

section Python

/-- The digits of an integer that the interpreter turns into text or reads from it. -/
def maxStrDigits : ℕ := 4300

/-- A number of Python's JSON: an integer, a double or one of the constants that are none. -/
inductive PyNumber where
  | int (n : ℤ) (h : (decimalDigits n.natAbs).length ≤ maxStrDigits)
  | finite (negative : Bool) (m : Magnitude)
  | constant (c : Constant)
deriving DecidableEq

def PyNumber.ofFloat : Float64 → PyNumber
  | .finite negative m => .finite negative m
  | .infinite negative => .constant (if negative then .negInfinity else .infinity)
  | .nan => .constant .nan

def PyNumber.token : PyNumber → Token
  | int n _ => .number (.ofInt n)
  | finite negative m => .number (m.token negative)
  | constant c => .constant c

def PyNumber.text : PyNumber → Text
  | int n _ => (NumberToken.ofInt n).text
  | finite negative m => (m.token negative).text
  | constant .nan => Text.of "nan"
  | constant .infinity => Text.of "inf"
  | constant .negInfinity => Text.of "-inf"

/-- `float(n)`, if `n` is not too large for it. -/
def PyNumber.float? : PyNumber → Option Float64
  | int n _ =>
    match Float64.ofInt n with
    | .infinite _ => none
    | x => some x
  | finite negative m => some (.finite negative m)
  | constant .nan => some .nan
  | constant .infinity => some (.infinite false)
  | constant .negInfinity => some (.infinite true)

/-- A numeral without a fraction and an exponent is an integer. -/
def NumberToken.python (t : NumberToken) : Except JsonError PyNumber :=
  if t.fraction = [] ∧ t.exponent = none then
    if h : (decimalDigits t.toInt.natAbs).length ≤ maxStrDigits then .ok (.int t.toInt h)
    else .error .digits
  else .ok (.ofFloat t.float)

/-- `json.loads`. -/
def python (maxDepth : Option ℕ) : Dialect PyNumber where
  number := NumberToken.python
  constant c := some (.constant c)
  maxDepth := maxDepth

theorem python_reads (maxDepth : Option ℕ) : Reads (python maxDepth) PyNumber.token id := by
  intro n stack
  cases n with
  | int n h =>
    have hread : (NumberToken.ofInt n).python = .ok (.int n h) := by
      rw [NumberToken.python,if_pos ⟨rfl,rfl⟩]
      simp only [NumberToken.toInt_ofInt,h,dif_pos]
    simp only [PyNumber.token,readValue,python,hread]
    rfl
  | finite negative m =>
    have hread : (m.token negative).python = .ok (.finite negative m) := by
      have hfloat : ¬((m.token negative).fraction = [] ∧ (m.token negative).exponent = none) := by
        rintro ⟨hfraction,hexponent⟩
        rcases m.token_float negative with h | h
        · exact h hfraction
        · exact h hexponent
      rw [NumberToken.python,if_neg hfloat,m.float_token]
      rfl
    simp only [PyNumber.token,readValue,python,hread]
    rfl
  | constant c => rfl

theorem python_scanned (separators : Separators) (n : PyNumber) :
    n.token.Scanned separators := by
  cases n with
  | int n h => exact scanned_number ⟨NumberToken.ofInt_wellFormed n,nofun⟩
  | finite negative m => exact scanned_number (m.token_wellFormed negative)
  | constant c => exact scanned_constant c

end Python

section JavaScript

/-- `JSON.parse`. -/
def javascript : Dialect Float64 where
  number t := .ok t.float
  constant _ := none
  maxDepth := none

/-- A number that is the same in both languages: an integer of up to 53 binary places or a
double. -/
inductive WireNumber where
  | int (n : ℤ) (h : n.natAbs ≤ 2^53)
  | finite (negative : Bool) (m : Magnitude)

namespace WireNumber

def token : WireNumber → Token
  | int n _ => .number (.ofInt n)
  | finite negative m => .number (m.token negative)

def float : WireNumber → Float64
  | int n _ => .ofInt n
  | finite negative m => .finite negative m

theorem float_int {n : ℤ} (h : n.natAbs ≤ 2^53) : (int n h).float.value = some (n : ℚ) :=
  Float64.ofInt_value h

theorem token_ne_string (n : WireNumber) (s : Text) : n.token ≠ .string s := by
  cases n <;> nofun

end WireNumber

theorem javascript_reads : Reads javascript WireNumber.token WireNumber.float := by
  intro n stack
  cases n with
  | int n h =>
    simp only [WireNumber.token,readValue,javascript,NumberToken.float_ofInt]
    rfl
  | finite negative m =>
    simp only [WireNumber.token,readValue,javascript,m.float_token]
    rfl

theorem wire_scanned (separators : Separators) (n : WireNumber) : n.token.Scanned separators := by
  cases n with
  | int n h => exact scanned_number ⟨NumberToken.ofInt_wellFormed n,nofun⟩
  | finite negative m => exact scanned_number (m.token_wellFormed negative)

end JavaScript
end VermayAgent.Library
