/-!
# Texts

A text is what the program reads, compares and writes as words: a finite sequence of
Unicode code points. Besides the scalar values a Lean `String` holds, a text may hold a
surrogate code point (U+D800 to U+DFFF) on its own: JSON spells one with a `\u` escape
that has no partner, and such a text is carried through unchanged. Texts compare code
point by code point.

`Text.ofString` embeds a string (it is also the coercion, so string literals stand for
texts), `Text.toString?` gives the string back when the text holds no lone surrogate, and
`Text.withStand` replaces each lone surrogate by a stand-in character where only the
characters matter. A lone surrogate cannot be encoded as UTF-8: `Text.encodeFailure?`
finds the first run of them, which is where encoding stops.
-/

namespace CorridorRank

/-- A sequence of Unicode code points, lone surrogates allowed. -/
structure Text where
  points : List Nat
  deriving DecidableEq, Inhabited, Repr

namespace Text

/-- Whether a code point is a surrogate. -/
def isSurrogate
    (n : Nat) :
    Bool := 0xD800 ≤ n && n < 0xE000

/-- The text of a string. -/
def ofString
    (s : String) :
    Text := ⟨s.toList.map Char.toNat⟩

instance : Coe String Text := ⟨ofString⟩

/-- Concatenation. -/
def append
    (a b : Text) :
    Text := ⟨a.points ++ b.points⟩

instance : Append Text := ⟨append⟩

/-- The empty text. -/
def empty : Text := ⟨[]⟩

/-- The number of code points. -/
def length
    (t : Text) :
    Nat := t.points.length

/-- Whether a text has no code points. -/
def isEmpty
    (t : Text) :
    Bool := t.points.isEmpty

/-- The characters of a text, each lone surrogate replaced by `stand`. -/
def chars
    (stand : Char)
    (t : Text) :
    List Char :=
  t.points.map fun n => if isSurrogate n then stand else Char.ofNat n

/-- The string of a text, each lone surrogate replaced by `stand`. -/
def withStand
    (stand : Char)
    (t : Text) :
    String := String.ofList (t.chars stand)

/-- The string of a text that holds no lone surrogate. -/
def toString?
    (t : Text) :
    Option String :=
  if t.points.any isSurrogate then none else some (t.withStand ' ')

/-- The texts joined, `sep` between each two. -/
def join
    (sep : Text) :
    List Text → Text
  | [] => empty
  | [t] => t
  | t :: rest => t ++ sep ++ join sep rest

/-- Code point lists in order: the first unequal point decides, a proper prefix comes
first. -/
def comparePoints : List Nat → List Nat → Ordering
  | [], [] => .eq
  | [], _ :: _ => .lt
  | _ :: _, [] => .gt
  | a :: as, b :: bs => if a < b then .lt else if b < a then .gt else comparePoints as bs

/-- The order of two texts, code point by code point. -/
def compare
    (a b : Text) :
    Ordering := comparePoints a.points b.points

/-- The length of the run of lone surrogates at the start of a code point list. -/
def surrogateRun
    (ns : List Nat) :
    Nat := (ns.takeWhile isSurrogate).length

/-- Where UTF-8 encoding of a text stops: the position of the first lone surrogate, the
length of the run of surrogates there, and that first code point. -/
def encodeFailure?
    (t : Text) :
    Option (Nat × Nat × Nat) :=
  match t.points.findIdx? isSurrogate with
  | some i => some (i, surrogateRun (t.points.drop i), t.points.getD i 0)
  | none => none

@[simp] theorem points_ofString
    (s : String) :
    (ofString s).points = s.toList.map Char.toNat :=
  rfl

@[simp] theorem points_append
    (a b : Text) :
    (a ++ b).points = a.points ++ b.points := rfl

theorem length_append
    (a b : Text) :
    (a ++ b).length = a.length + b.length := by
  simp [length]

theorem comparePoints_self
    (ns : List Nat) :
    comparePoints ns ns = .eq := by
  induction ns with
  | nil => rfl
  | cons n ns ih => simp [comparePoints, ih]

/-- A string's text has no lone surrogate, so it encodes. -/
theorem encodeFailure_ofString
    (s : String) :
    encodeFailure? (ofString s) = none := by
  have h : ∀ c : Char, isSurrogate c.toNat = false := by
    intro c
    have hv := c.valid
    simp only [isSurrogate, Bool.and_eq_false_iff, decide_eq_false_iff_not, Nat.not_le,
      Nat.not_lt]
    rcases hv with hv | hv
    · left; simpa using hv
    · right; have := hv.1; simp at this ⊢; omega
  unfold encodeFailure?
  rw [List.findIdx?_eq_none_iff.mpr (by simp [h])]

end Text

end CorridorRank
