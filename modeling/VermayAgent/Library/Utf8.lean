import VermayAgent.Library.JsonValue
import Mathlib.Tactic.NormNum

/-! UTF-8 and its decoding as the bytes come in.
The decoder keeps what it has seen of a character between two pieces of its input. -/
namespace VermayAgent.Library

/-- The bytes of a text that has no halves of surrogate pairs. -/
def utf8 (s : List Char) : List UInt8 := s.flatMap String.utf8EncodeChar

/-- The characters of a text, unless it holds half of a surrogate pair. -/
def Text.chars? : Text → Option (List Char)
  | [] => some []
  | .char c::text => (chars? text).map (c::·)
  | .surrogate _::_ => none

/-- `text.encode("utf-8")`. -/
def Text.encode? (text : Text) : Option (List UInt8) := text.chars?.map utf8

theorem Text.chars?_of {text : Text} (h : ∀ c ∈ text, ∃ char, c = .char char) :
    ∃ s, text.chars? = some s ∧ text = s.map .char := by
  induction text with
  | nil => exact ⟨[],rfl,rfl⟩
  | cons c text ih =>
    rw [List.forall_mem_cons] at h
    obtain ⟨⟨char,rfl⟩,htext⟩ := h
    obtain ⟨s,hs,rfl⟩ := ih htext
    exact ⟨char::s,by rw [chars?,hs]; rfl,rfl⟩

/-- What stands for bytes that are no character. -/
def replacement : CodePoint := .char '\uFFFD'

/-- Between two characters, or inside one whose next byte lies between the bounds. -/
inductive Utf8State where
  | start
  | inside (codePoint needed lower upper : Nat)
deriving DecidableEq

namespace Utf8State

/-- The first byte of a character. -/
def first (b : Nat) : Text × Utf8State :=
  if b ≤ 0x7F then ([.ofNat b],start)
  else if 0xC2 ≤ b ∧ b ≤ 0xDF then ([],inside (b % 0x20) 1 0x80 0xBF)
  else if 0xE0 ≤ b ∧ b ≤ 0xEF then
    ([],inside (b % 0x10) 2 (if b = 0xE0 then 0xA0 else 0x80) (if b = 0xED then 0x9F else 0xBF))
  else if 0xF0 ≤ b ∧ b ≤ 0xF4 then
    ([],inside (b % 8) 3 (if b = 0xF0 then 0x90 else 0x80) (if b = 0xF4 then 0x8F else 0xBF))
  else ([replacement],start)

/-- A byte that does not go on with the character is taken again as the first of another. -/
def step : Utf8State → Nat → Text × Utf8State
  | start, b => first b
  | inside codePoint needed lower upper, b =>
    if lower ≤ b ∧ b ≤ upper then
      let codePoint' := codePoint*0x40 + b % 0x40
      if needed = 1 then ([.ofNat codePoint'],start)
      else ([],inside codePoint' (needed-1) 0x80 0xBF)
    else (replacement::(first b).1,(first b).2)

def decode : Utf8State → List UInt8 → Text × Utf8State
  | state, [] => ([],state)
  | state, b::bytes =>
    let read := state.step b.toNat
    let rest := decode read.2 bytes
    (read.1++rest.1,rest.2)

/-- The end of the input. -/
def finish : Utf8State → Text
  | start => []
  | inside _ _ _ _ => [replacement]

theorem decode_append (state : Utf8State) (a b : List UInt8) :
    state.decode (a++b) =
      ((state.decode a).1++((state.decode a).2.decode b).1,((state.decode a).2.decode b).2) := by
  induction a generalizing state with
  | nil => rfl
  | cons byte a ih => simp only [List.cons_append,decode,ih,List.append_assoc]

theorem step_inside {codePoint needed lower upper b : Nat} (hb : lower ≤ b ∧ b ≤ upper)
    (hneeded : needed ≠ 1) : (inside codePoint needed lower upper).step b =
      ([],inside (codePoint*0x40 + b % 0x40) (needed-1) 0x80 0xBF) := by
  simp only [step,if_pos hb,if_neg hneeded]

theorem step_last {codePoint lower upper b : Nat} (hb : lower ≤ b ∧ b ≤ upper) :
    (inside codePoint 1 lower upper).step b = ([.ofNat (codePoint*0x40 + b % 0x40)],start) := by
  simp only [step,if_pos hb,if_true]

theorem decode_cons {state state' : Utf8State} {byte : UInt8} {b : Nat} {read : Text}
    (hb : byte.toNat = b) (h : state.step b = (read,state')) (bytes : List UInt8) :
    state.decode (byte::bytes) = (read++(state'.decode bytes).1,(state'.decode bytes).2) := by
  simp only [decode,hb,h]

theorem toNat_byte {n : Nat} (h : n < 256) : (UInt8.ofNat n).toNat = n := by
  rw [UInt8.toNat_ofNat']
  exact Nat.mod_eq_of_lt h

theorem first_of_two {v : Nat} (hlow : 0x7F < v) (hhigh : v ≤ 0x7FF) :
    start.step (v/64%0x20+0xC0) = ([],inside (v/64) 1 0x80 0xBF) := by
  have hcode : (v/64%0x20+0xC0) % 0x20 = v/64 := by omega
  rw [step,first,if_neg (by omega),if_pos (by omega),hcode]

theorem first_of_three {v : Nat} (hhigh : v ≤ 0xFFFF) :
    start.step (v/4096%0x10+0xE0) =
      ([],inside (v/4096) 2 (if v/4096 = 0 then 0xA0 else 0x80)
        (if v/4096 = 0xD then 0x9F else 0xBF)) := by
  have hcode : (v/4096%0x10+0xE0) % 0x10 = v/4096 := by omega
  have hzero : v/4096%0x10+0xE0 = 0xE0 ↔ v/4096 = 0 := by omega
  have hlast : v/4096%0x10+0xE0 = 0xED ↔ v/4096 = 0xD := by omega
  rw [step,first,if_neg (by omega),if_neg (by omega),if_pos (by omega),hcode]
  simp only [hzero,hlast]

theorem first_of_four {v : Nat} (hhigh : v < 0x110000) :
    start.step (v/262144%0x08+0xF0) =
      ([],inside (v/262144) 3 (if v/262144 = 0 then 0x90 else 0x80)
        (if v/262144 = 4 then 0x8F else 0xBF)) := by
  have hcode : (v/262144%0x08+0xF0) % 8 = v/262144 := by omega
  have hzero : v/262144%0x08+0xF0 = 0xF0 ↔ v/262144 = 0 := by omega
  have hlast : v/262144%0x08+0xF0 = 0xF4 ↔ v/262144 = 4 := by omega
  rw [step,first,if_neg (by omega),if_neg (by omega),if_neg (by omega),if_pos (by omega),hcode]
  simp only [hzero,hlast]

/-- The bytes of a character are decoded to it. -/
theorem decode_char (c : Char) :
    start.decode (String.utf8EncodeChar c) = ([.char c],start) := by
  have hc := CodePoint.ofNat_value (.char c)
  have hscalar := CodePoint.char_scalar c
  have hmax : c.val.toNat < 0x110000 := by
    rcases c.valid with h | h
    · exact h.trans (by norm_num)
    · exact h.2
  change CodePoint.ofNat c.val.toNat = .char c at hc
  change c.val.toNat < _ ∨ _ ≤ c.val.toNat at hscalar
  unfold String.utf8EncodeChar
  generalize c.val.toNat = v at hc hscalar hmax
  simp only []
  split
  · rename_i h
    rw [decode_cons (toNat_byte (by omega)) (by rw [step,first,if_pos h,hc])]
    rfl
  · split
    · rename_i hlow hhigh
      have hlast : (inside (v/64) 1 0x80 0xBF).step (v%0x40+0x80) = _ := step_last (by omega)
      have hcode : v/64*0x40+(v%0x40+0x80)%0x40 = v := by omega
      rw [hcode,hc] at hlast
      rw [decode_cons (toNat_byte (by omega)) (first_of_two (by omega) hhigh),
        decode_cons (toNat_byte (by omega)) hlast]
      rfl
    · split
      · rename_i hlow hhigh
        have hsecond : (inside (v/4096) 2 (if v/4096 = 0 then 0xA0 else 0x80)
            (if v/4096 = 0xD then 0x9F else 0xBF)).step (v/64%0x40+0x80) = _ :=
          step_inside (by split <;> split <;> omega) (by omega)
        have hlast : (inside (v/4096*0x40+(v/64%0x40+0x80)%0x40) 1 0x80 0xBF).step
            (v%0x40+0x80) = _ := step_last (by omega)
        have hcode : (v/4096*0x40+(v/64%0x40+0x80)%0x40)*0x40+(v%0x40+0x80)%0x40 = v := by omega
        rw [hcode,hc] at hlast
        rw [decode_cons (toNat_byte (by omega)) (first_of_three hhigh),
          decode_cons (toNat_byte (by omega)) hsecond,decode_cons (toNat_byte (by omega)) hlast]
        rfl
      · have hsecond : (inside (v/262144) 3 (if v/262144 = 0 then 0x90 else 0x80)
            (if v/262144 = 4 then 0x8F else 0xBF)).step (v/4096%0x40+0x80) = _ :=
          step_inside (by split <;> split <;> omega) (by omega)
        have hthird : (inside (v/262144*0x40+(v/4096%0x40+0x80)%0x40) 2 0x80 0xBF).step
            (v/64%0x40+0x80) = _ := step_inside (by omega) (by omega)
        have hlast : (inside ((v/262144*0x40+(v/4096%0x40+0x80)%0x40)*0x40+
            (v/64%0x40+0x80)%0x40) 1 0x80 0xBF).step (v%0x40+0x80) = _ := step_last (by omega)
        have hcode : ((v/262144*0x40+(v/4096%0x40+0x80)%0x40)*0x40+(v/64%0x40+0x80)%0x40)*0x40+
            (v%0x40+0x80)%0x40 = v := by omega
        rw [hcode,hc] at hlast
        rw [decode_cons (toNat_byte (by omega)) (first_of_four hmax),
          decode_cons (toNat_byte (by omega)) hsecond,decode_cons (toNat_byte (by omega)) hthird,
          decode_cons (toNat_byte (by omega)) hlast]
        rfl

/-- A text is decoded from its bytes. -/
theorem decode_utf8 (s : List Char) : start.decode (utf8 s) = (s.map .char,start) := by
  induction s with
  | nil => rfl
  | cons c s ih =>
    change start.decode (String.utf8EncodeChar c++utf8 s) = _
    rw [decode_append,decode_char,ih]
    rfl

end Utf8State

/-- `TextDecoder`, which drops a mark at the very start of its input. -/
structure TextDecoder where
  state : Utf8State
  bomSeen : Bool

namespace TextDecoder

def new : TextDecoder := ⟨.start,false⟩

def byteOrderMark : CodePoint := .char '\uFEFF'

/-- Text that is passed on, without the mark if it is the first. -/
def dropMark (bomSeen : Bool) : Text → Text
  | [] => []
  | c::text => if bomSeen = false ∧ c = byteOrderMark then text else c::text

/-- `decode(bytes, { stream: true })`. -/
def decode (d : TextDecoder) (bytes : List UInt8) : Text × TextDecoder :=
  let read := d.state.decode bytes
  (dropMark d.bomSeen read.1,⟨read.2,d.bomSeen || !read.1.isEmpty⟩)

/-- `decode()`, which ends the input. -/
def finish (d : TextDecoder) : Text := d.state.finish

theorem dropMark_append (bomSeen : Bool) (a b : Text) :
    dropMark bomSeen (a++b) = dropMark bomSeen a++dropMark (bomSeen || !a.isEmpty) b := by
  cases a with
  | nil => simp [dropMark]
  | cons c a =>
    have hseen : ∀ text : Text, dropMark true text = text := by
      rintro (_ | ⟨c,text⟩) <;> simp [dropMark]
    simp only [List.isEmpty_cons,Bool.not_false,Bool.or_true,hseen,List.cons_append]
    rw [dropMark,dropMark]
    split <;> rfl

/-- What two pieces are decoded to one after the other is what they are decoded to together. -/
theorem decode_append (d : TextDecoder) (a b : List UInt8) :
    d.decode (a++b) =
      ((d.decode a).1++((d.decode a).2.decode b).1,((d.decode a).2.decode b).2) := by
  simp only [decode,Utf8State.decode_append,dropMark_append,Prod.mk.injEq,mk.injEq,true_and]
  cases (d.state.decode a).1 <;> simp

theorem decode_utf8 (s : List Char) (h : s.head? ≠ some '\uFEFF') :
    (new.decode (utf8 s)).1 = s.map .char ∧ (new.decode (utf8 s)).2.finish = [] := by
  simp only [decode,new,Utf8State.decode_utf8]
  refine ⟨?_,rfl⟩
  cases s with
  | nil => rfl
  | cons c s =>
    have hc : c ≠ '\uFEFF' := fun heq => h (heq ▸ rfl)
    simp [dropMark,byteOrderMark,hc]

end TextDecoder
end VermayAgent.Library
