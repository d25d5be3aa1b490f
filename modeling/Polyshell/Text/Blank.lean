/-
  Blank characters, and cutting them off the ends of a text.

  Every reader of the shell that skips "white space" means one class: the characters with the
  Unicode property White_Space.  The class of the core library (`Char.isWhitespace`) stops at
  ASCII, so the whole property is listed here, and `isBlank_of_isWhitespace` says that nothing of
  core's class is missing.

  Texts are scanned as `List Char`.  `trim` is the composition of two cuts, and each cut is
  described by what it leaves: a text whose first (last) character is not blank.
-/

namespace Polyshell.Text

/-! ## The class -/

/-- White_Space: the six ASCII blanks, the no-break and typographic spaces, and the two separators
    for lines and paragraphs. -/
def isBlank (c : Char) : Bool :=
  let n := c.toNat
  (9 ≤ n && n ≤ 13) || n == 0x20 || n == 0x85 || n == 0xA0 || n == 0x1680 ||
    (0x2000 ≤ n && n ≤ 0x200A) || n == 0x2028 || n == 0x2029 || n == 0x202F || n == 0x205F ||
    n == 0x3000

/-- Core's white space is blank: the class here only adds to it. -/
theorem isBlank_of_isWhitespace (c : Char) (h : c.isWhitespace = true) : isBlank c = true := by
  simp only [Char.isWhitespace, Bool.or_eq_true, decide_eq_true_eq] at h
  rcases h with ((h | h) | h) | h <;> subst h <;> decide

/-! ## Cutting -/

/-- The text from its first character that is not blank. -/
def trimStart (s : List Char) : List Char := s.dropWhile isBlank

/-- The text up to its last character that is not blank. -/
def trimEnd (s : List Char) : List Char := (s.reverse.dropWhile isBlank).reverse

/-- The text without the blanks at its ends. -/
def trim (s : List Char) : List Char := trimEnd (trimStart s)

/-- `trim` on finished text. -/
def trimmed (s : String) : String := String.ofList (trim s.toList)

@[simp] theorem trimStart_nil : trimStart [] = [] := rfl
@[simp] theorem trimEnd_nil : trimEnd [] = [] := rfl

/-- The blanks cut off at the end are exactly a blank suffix. -/
theorem trimEnd_append_blank (s : List Char) (c : Char) (h : isBlank c = true) :
    trimEnd (s ++ [c]) = trimEnd s := by
  simp [trimEnd, h]

/-- A text that ends in a character that is not blank loses nothing at its end. -/
theorem trimEnd_append_solid (s : List Char) (c : Char) (h : isBlank c = false) :
    trimEnd (s ++ [c]) = s ++ [c] := by
  simp [trimEnd, h]

/-! ## Splitting -/

/-- The words of a text: its longest stretches without a blank, in order. -/
def words (s : List Char) : List (List Char) :=
  let closed : List Char × List (List Char) :=
    s.foldr
      (fun c acc =>
        if isBlank c then ([], if acc.1.isEmpty then acc.2 else acc.1 :: acc.2)
        else (c :: acc.1, acc.2))
      ([], [])
  if closed.1.isEmpty then closed.2 else closed.1 :: closed.2

/-- The text before the first occurrence of `d`, and the text after it when `d` occurs. -/
def cut (d : Char) : List Char → List Char × Option (List Char)
  | [] => ([], none)
  | c :: r => if c = d then ([], some r) else ((cut d r).1.cons c, (cut d r).2)

/-- The pieces between the occurrences of `d`; there is one more of them than of `d`. -/
def splitAll (d : Char) : List Char → List (List Char)
  | [] => [[]]
  | c :: r =>
    if c = d then [] :: splitAll d r
    else match splitAll d r with
      | [] => [[c]]
      | p :: ps => (c :: p) :: ps

/-- The rest of `s` after the leading text `p`, if `s` starts with `p`. -/
def dropLeading? : (p s : List Char) → Option (List Char)
  | [], s => some s
  | _ :: _, [] => none
  | a :: p, c :: s => if a = c then dropLeading? p s else none

/-- `s` without its last character, if that is `d`. -/
def dropLast? (d : Char) (s : List Char) : Option (List Char) :=
  if s.getLast? = some d then some s.dropLast else none

/-- Whether `p` occurs in `s`, and the text after its first occurrence. -/
def after? (p : List Char) : List Char → Option (List Char)
  | [] => if p.isEmpty then some [] else none
  | c :: r => match dropLeading? p (c :: r) with
    | some rest => some rest
    | none => after? p r

theorem cut_of_not_mem {d : Char} {s : List Char} (h : d ∉ s) : cut d s = (s, none) := by
  induction s with
  | nil => rfl
  | cons c r ih =>
    obtain ⟨hc, hr⟩ := not_or.mp (mt List.mem_cons.mpr h)
    rw [cut, if_neg (Ne.symm hc), ih hr]

theorem cut_append {d : Char} {s : List Char} (h : d ∉ s) (r : List Char) :
    cut d (s ++ d :: r) = (s, some r) := by
  induction s with
  | nil =>
    rw [List.nil_append, cut, if_pos rfl]
  | cons c s ih =>
    obtain ⟨hc, hs⟩ := not_or.mp (mt List.mem_cons.mpr h)
    rw [List.cons_append, cut, if_neg (Ne.symm hc), ih hs]

theorem dropLeading?_append (p s : List Char) : dropLeading? p (p ++ s) = some s := by
  induction p with
  | nil => simp [dropLeading?]
  | cons a p ih => simpa [dropLeading?] using ih

/-- Only texts that start with `p` have a rest after it. -/
theorem eq_append_of_dropLeading? {p s r : List Char} (h : dropLeading? p s = some r) :
    s = p ++ r := by
  induction p generalizing s with
  | nil => simpa [dropLeading?] using h
  | cons a p ih =>
    cases s with
    | nil => simp [dropLeading?] at h
    | cons c s =>
      by_cases hc : a = c
      · simp only [dropLeading?, hc, if_true] at h
        simp [hc, ih h]
      · simp [dropLeading?, hc] at h

example : trim " \t a b \n".toList = "a b".toList := by decide
example : words "  a  bc ".toList = ["a".toList, "bc".toList] := by decide
example : splitAll ',' "a,,b".toList = ["a".toList, [], "b".toList] := by decide

end Polyshell.Text
