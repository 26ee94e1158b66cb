import Renewals.Text.Blank
import Renewals.Text.Quoted
/-! Text in which half of a surrogate pair may stand without its partner. -/
namespace Renewals

/-- A character, or a half of a pair by its distance from the first of them. -/
inductive CodePoint
  | char (c : Char)
  | half (n : Fin 0x800)
  deriving DecidableEq, Repr

namespace CodePoint

def char? : CodePoint → Option Char
  | char c => some c
  | half _ => none

def code : CodePoint → Nat
  | char c => c.toNat
  | half n => 0xD800 + n

/-- A unit of sixteen bits: half of a pair, or a character. -/
def ofUnit (v : Nat) : CodePoint :=
  if h : 0xD800 ≤ v ∧ v < 0xE000 then .half ⟨v - 0xD800, by omega⟩ else .char (Char.ofNat v)

/-- The character of two halves, the high one first. -/
def ofPair (high low : Nat) : CodePoint :=
  .char (Char.ofNat (0x10000 + (high - 0xD800) * 0x400 + (low - 0xDC00)))

def isHigh (v : Nat) : Bool := 0xD800 ≤ v && v < 0xDC00

def isLow (v : Nat) : Bool := 0xDC00 ≤ v && v < 0xE000

/-- A character that passes a test. -/
def passes (p : Char → Bool) : CodePoint → Bool
  | char c => p c
  | half _ => false

def isBlank : CodePoint → Bool
  | char c => Text.isBlank c
  | half _ => false

/-- A half has no visible form. -/
def quoted (quote : Char) : CodePoint → List Char
  | char c => Text.quotedChar quote c
  | half n => '\\' :: 'u' :: Text.hex 4 (0xD800 + n)

end CodePoint

/-- The characters of a text without halves. -/
def wholeChars? (ps : List CodePoint) : Option (List Char) := ps.mapM CodePoint.char?

/-- Text is torn if it has a half. -/
inductive LooseText
  | whole (s : String)
  | torn (points : List CodePoint) (has_half : wholeChars? points = none)
  deriving DecidableEq, Repr

namespace LooseText

instance : Coe String LooseText := ⟨whole⟩
instance : Inhabited LooseText := ⟨whole ""⟩

def ofPoints (ps : List CodePoint) : LooseText :=
  match h : wholeChars? ps with
  | some cs => whole (String.ofList cs)
  | none => torn ps h

def points : LooseText → List CodePoint
  | whole s => s.toList.map .char
  | torn ps _ => ps

theorem wholeChars?_map (cs : List Char) : wholeChars? (cs.map .char) = some cs := by
  induction cs with
  | nil => rfl
  | cons c cs ih =>
    simp only [wholeChars?] at ih
    simp [wholeChars?, List.mapM_cons, CodePoint.char?, ih]

theorem ofPoints_points (t : LooseText) : ofPoints t.points = t := by
  cases t with
  | whole s =>
    unfold ofPoints points
    split
    · rename_i cs h
      rw [wholeChars?_map, Option.some.injEq] at h
      rw [← h, String.ofList_toList]
    · rename_i h
      simp [wholeChars?_map] at h
  | torn ps h =>
    unfold ofPoints points
    split
    · rename_i h'
      simp [h] at h'
    · rfl

def whole? : LooseText → Option String
  | whole s => some s
  | torn .. => none

def isEmpty (t : LooseText) : Bool := t.points.isEmpty

/-- Without blanks at both ends. -/
def strip : LooseText → LooseText
  | whole s => Text.strip s
  | torn ps _ =>
    ofPoints ((ps.dropWhile CodePoint.isBlank).reverse.dropWhile CodePoint.isBlank).reverse

def append (s : String) : LooseText → LooseText
  | whole t => s ++ t
  | torn ps _ => ofPoints (s.toList.map .char ++ ps)

def followedBy (s : String) : LooseText → LooseText
  | whole t => t ++ s
  | torn ps _ => ofPoints (ps ++ s.toList.map .char)

/-- Each half as the replacement character. -/
def mended (t : LooseText) : String :=
  String.ofList (t.points.map fun p => p.char?.getD '\uFFFD')

def quotedChars (t : LooseText) : List Char :=
  let q := Text.quoteOf (t.points.filterMap CodePoint.char?)
  q :: t.points.flatMap (·.quoted q) ++ [q]

def quoted (t : LooseText) : String := String.ofList t.quotedChars

end LooseText
end Renewals
