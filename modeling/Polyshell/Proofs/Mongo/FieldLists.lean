/-
  Field names in one string stand for the object of these fields.

  1. **Words** — a text is cut into words at its blanks, so a text that lists some words with blanks
     between them is cut into these (`Listing.words`).  The fold goes through the text from its end,
     and what it has found there is the beginning of a word and the words behind it
     (`openWords`).

  2. **Objects** — the same fields as members of an object, the names bare or between quotes, are
     read as the document that the words stand for (`Spelled.writes`).  The induction is on the
     members; what the normal form leaves of them is spelled the same way, with fewer blanks
     (`Entries.collapsed`).

  3. **Places** — wherever a command takes such a list, it takes either form for the other
     (`ofText_fieldList`).
-/
import Polyshell.Mongo.Query
import Polyshell.Proofs.Bson.Printed
import Polyshell.Proofs.Mongo.Composed
import Polyshell.Proofs.Mongo.QueryChain

namespace Polyshell

/-! ## Words -/

namespace Text

/-- The beginning of a text up to its first blank, and the words behind that. -/
def openWords (s : List Char) : List Char × List (List Char) :=
  s.foldr
    (fun c acc =>
      if isBlank c then ([], if acc.1.isEmpty then acc.2 else acc.1 :: acc.2)
      else (c :: acc.1, acc.2))
    ([], [])

theorem words_eq (s : List Char) : words s =
    if (openWords s).1.isEmpty then (openWords s).2 else (openWords s).1 :: (openWords s).2 := rfl

theorem openWords_blank {c : Char} (hc : isBlank c = true) (s : List Char) :
    openWords (c :: s) = ([], words s) := by
  rw [openWords, List.foldr_cons, if_pos hc]
  rfl

theorem openWords_solid {c : Char} (hc : isBlank c = false) (s : List Char) :
    openWords (c :: s) = (c :: (openWords s).1, (openWords s).2) := by
  rw [openWords, List.foldr_cons, if_neg (Bool.eq_false_iff.mp hc)]
  rfl

/-- Blanks in front of a text are no part of its words. -/
theorem words_blanks_append {w : List Char} (hw : ∀ c ∈ w, isBlank c = true) (s : List Char) :
    words (w ++ s) = words s := by
  induction w with
  | nil => rfl
  | cons c w ih =>
    rw [List.cons_append, words_eq, openWords_blank (hw c List.mem_cons_self)]
    exact ih fun d hd => hw d (List.mem_cons_of_mem c hd)

/-- What has no blanks goes on with the text behind it. -/
theorem openWords_append {x : List Char} (hx : ∀ c ∈ x, isBlank c = false) (s : List Char) :
    openWords (x ++ s) = (x ++ (openWords s).1, (openWords s).2) := by
  induction x with
  | nil => rfl
  | cons c x ih =>
    rw [List.cons_append, openWords_solid (hx c List.mem_cons_self),
      ih fun d hd => hx d (List.mem_cons_of_mem c hd), List.cons_append]

/-- It is a word if there is a blank or nothing behind it. -/
theorem words_append {x : List Char} (hne : x ≠ []) (hx : ∀ c ∈ x, isBlank c = false)
    {s : List Char} (hs : (openWords s).1 = []) : words (x ++ s) = x :: words s := by
  have hword : ¬ x.isEmpty = true := by
    rw [List.isEmpty_iff]
    exact hne
  rw [words_eq, openWords_append hx, words_eq s, hs, List.append_nil, if_neg hword]
  rfl

/-- Blanks end the word in front of them. -/
theorem openWords_blanks_append {w : List Char} (hw : ∀ c ∈ w, isBlank c = true) (hne : w ≠ [])
    (s : List Char) : (openWords (w ++ s)).1 = [] := by
  cases w with
  | nil => exact absurd rfl hne
  | cons c w => rw [List.cons_append, openWords_blank (hw c List.mem_cons_self)]

end Text

namespace Mongo

open Polyshell.Text
open Polyshell.Json (Spaces intText)

/-! ## Fields -/

/-- A field, and whether it stands behind a hyphen. -/
structure Field where
  name : List Char
  turned : Bool

/-- The characters of fields, and of paths to fields. -/
def isFieldChar (c : Char) : Bool := c.isAlphanum || c = '_' || c = '.'

namespace Field

/-- As a word of a list. -/
def word (f : Field) : List Char := if f.turned then '-' :: f.name else f.name

/-- Its number in an object: one, or what the hyphen stands for. -/
def value (minus : Int) (f : Field) : Int := if f.turned then minus else 1

/-- Its member of a document. -/
def entry (minus : Int) (f : Field) : String × Bson :=
  (String.ofList f.name, .int32 (f.value minus))

def IsNamed (f : Field) : Prop := f.name ≠ [] ∧ ∀ c ∈ f.name, isFieldChar c = true

end Field

/-- Some fields, none of them twice. -/
structure IsFieldList (fs : List Field) : Prop where
  named : ∀ f ∈ fs, f.IsNamed
  distinct : (fs.map Field.name).Nodup

/-- The document that says of each field what its hyphen, or none, means. -/
def specification (minus : Int) (fs : List Field) : Document := fs.map (Field.entry minus)

/-- The fields as words, with blanks between them, and around them or not. -/
inductive Listing : List Field → List Char → Prop
  | last {f : Field} {w : List Char} (hw : Blanks w) : Listing [f] (f.word ++ w)
  | more {f : Field} {fs : List Field} {w s : List Char} (hw : Blanks w) (hne : w ≠ [])
      (hs : Listing fs s) : Listing (f :: fs) (f.word ++ (w ++ s))
  | behind {fs : List Field} {w s : List Char} (hw : Blanks w) (hs : Listing fs s) :
      Listing fs (w ++ s)

/-! ## As words -/

theorem isWordChar_of_isFieldChar {c : Char} (h : isFieldChar c = true) : isWordChar c = true := by
  simp only [isFieldChar, isWordChar, isNameChar, Bool.or_eq_true] at h ⊢
  rcases h with (h | h) | h
  · exact Or.inl (Or.inl (Or.inl h))
  · exact Or.inl (Or.inl (Or.inr h))
  · exact Or.inr h

/-- No quote, no bracket and no comma; and no dollar, which the wrappers have. -/
theorem isPlain_of_isFieldChar {c : Char} (h : isFieldChar c = true) :
    isPlain c = true ∧ c ≠ '\\' ∧ c ≠ '$' ∧ c ≠ '-' ∧ c ≠ '+' := by
  have hother : ∀ {d : Char}, isFieldChar d = false → c ≠ d := by
    rintro d hd rfl
    rw [h] at hd
    cases hd
  refine ⟨?_, hother (by decide), hother (by decide), hother (by decide), hother (by decide)⟩
  have hword := isWordChar_of_isFieldChar h
  rw [isWordChar, Bool.or_eq_true, decide_eq_true_eq] at hword
  rcases hword with hname | rfl
  · exact isPlain_of_isNameChar hname
  · decide

namespace Field

variable {f : Field} (hf : f.IsNamed)
include hf

theorem solid_word : f.word ≠ [] ∧ ∀ c ∈ f.word, isBlank c = false ∧ c ≠ '"' ∧ c ≠ '\\' := by
  have hname : ∀ c ∈ f.name, isBlank c = false ∧ c ≠ '"' ∧ c ≠ '\\' := by
    intro c hc
    obtain ⟨hplain, hbackslash, -⟩ := isPlain_of_isFieldChar (hf.2 c hc)
    obtain ⟨hquote, -, -, hblank, -⟩ := isPlain_spec hplain
    refine ⟨hblank, ?_, hbackslash⟩
    rintro rfl
    cases hquote
  rw [word]
  split
  · refine ⟨List.cons_ne_nil _ _, List.forall_mem_cons.mpr ⟨by decide, hname⟩⟩
  · exact ⟨hf.1, hname⟩

/-- A word is read as its field. -/
theorem fieldEntry_word (minus : Int) : fieldEntry 1 minus f.word = f.entry minus := by
  obtain ⟨name, turned⟩ := f
  cases turned with
  | true => rfl
  | false =>
    cases name with
    | nil => exact absurd rfl hf.1
    | cons c r =>
      obtain ⟨-, -, -, hminus, hplus⟩ := isPlain_of_isFieldChar (hf.2 c List.mem_cons_self)
      show fieldEntry 1 minus (c :: r) = (String.ofList (c :: r), .int32 1)
      unfold fieldEntry
      split
      · next heq => exact absurd (List.cons.inj heq).1 hminus
      · rw [List.dropWhile_cons_of_neg (by simpa using hplus)]

end Field

namespace Listing

variable {fs : List Field} {s : List Char} (h : Listing fs s) (hfs : ∀ f ∈ fs, f.IsNamed)
include h hfs

theorem words : Text.words s = fs.map Field.word := by
  have hsolid : ∀ {f : Field}, f.IsNamed → ∀ c ∈ f.word, isBlank c = false :=
    fun hf c hc => ((Field.solid_word hf).2 c hc).1
  induction h with
  | @last f w hw =>
    have hf := hfs f List.mem_cons_self
    have hnothing : Text.words w = [] := by
      rw [← List.append_nil w, words_blanks_append hw]
      rfl
    rw [words_append (Field.solid_word hf).1 (hsolid hf), hnothing]
    · rfl
    · cases w with
      | nil => rfl
      | cons c w =>
        rw [← List.append_nil (c :: w)]
        exact openWords_blanks_append hw (List.cons_ne_nil c w) []
  | @more f fs w s hw hne hs ih =>
    have hf := hfs f List.mem_cons_self
    rw [words_append (Field.solid_word hf).1 (hsolid hf) (openWords_blanks_append hw hne s),
      words_blanks_append hw, ih fun g hg => hfs g (List.mem_cons_of_mem f hg)]
    rfl
  | behind hw _ ih => rw [words_blanks_append hw, ih hfs]

/-- Nothing in it is escaped between double quotes. -/
theorem unescaped : ∀ c ∈ s, c ≠ '"' ∧ c ≠ '\\' := by
  have hblanks : ∀ {w : List Char}, Blanks w → ∀ c ∈ w, c ≠ '"' ∧ c ≠ '\\' := fun hw c hc =>
    ⟨ne_of_isBlank (hw c hc) (by decide), ne_of_isBlank (hw c hc) (by decide)⟩
  have hword : ∀ {f : Field}, f.IsNamed → ∀ c ∈ f.word, c ≠ '"' ∧ c ≠ '\\' :=
    fun hf c hc => ((Field.solid_word hf).2 c hc).2
  induction h with
  | last hw =>
    exact List.forall_mem_append.mpr ⟨hword (hfs _ List.mem_cons_self), hblanks hw⟩
  | more hw _ _ ih =>
    exact List.forall_mem_append.mpr ⟨hword (hfs _ List.mem_cons_self),
      List.forall_mem_append.mpr ⟨hblanks hw, ih fun g hg => hfs g (List.mem_cons_of_mem _ hg)⟩⟩
  | behind hw _ ih => exact List.forall_mem_append.mpr ⟨hblanks hw, ih hfs⟩

/-- Between quotes it is an argument. -/
theorem writes : Writes (.str (String.ofList s)) ('"' :: (s ++ ['"'])) := by
  have hterm : Writes (Term.str (String.ofList s)).argument (Term.text (.str (String.ofList s))) :=
    Writes.of_term trivial
  rw [Term.text_str (h.unescaped hfs)] at hterm
  exact hterm

end Listing

theorem keys_specification {fs : List Field} (h : IsFieldList fs) (minus : Int) :
    ((specification minus fs).map Prod.fst).Nodup := by
  have hkeys : (specification minus fs).map Prod.fst = (fs.map Field.name).map String.ofList := by
    rw [specification, List.map_map, List.map_map]
    rfl
  rw [hkeys]
  exact h.distinct.map fun a b hab => String.ofList_injective hab

/-- The words stand for the document of their fields. -/
theorem fieldList_listing {fs : List Field} (hfs : IsFieldList fs) {s : List Char}
    (hs : Listing fs s) (minus : Int) :
    fieldList 1 minus (String.ofList s) = specification minus fs := by
  have hentries : (fs.map Field.word).map (fieldEntry 1 minus) = specification minus fs := by
    rw [List.map_map, specification]
    exact List.map_congr_left fun f hf => Field.fieldEntry_word (hfs.named f hf) minus
  rw [fieldList, String.toList_ofList, hs.words hfs.named, hentries,
    Members.ofList_of_nodup _ (keys_specification hfs minus)]

/-! ## As members of an object -/

/-- The name of a field as a key: bare, or between quotes of either kind. -/
inductive FieldKey (f : Field) : List Char → Prop
  | bare : FieldKey f f.name
  | quoted {q : Char} (hq : q = '"' ∨ q = '\'') : FieldKey f (q :: (f.name ++ [q]))

/-- A field as a member, up to its number. -/
inductive MemberText (Blank : List Char → Prop) (minus : Int) (f : Field) : List Char → Prop
  | mk {w tk w₁ w₂ : List Char} (hw : Blank w) (hk : FieldKey f tk) (hw₁ : Blank w₁)
      (hw₂ : Blank w₂) :
      MemberText Blank minus f (w ++ (tk ++ (w₁ ++ ':' :: (w₂ ++ intText (f.value minus)))))

/-- The members of an object, with commas between them. -/
inductive Entries (Blank : List Char → Prop) (minus : Int) : List Field → List Char → Prop
  | last {f : Field} {t w : List Char} (h : MemberText Blank minus f t) (hw : Blank w) :
      Entries Blank minus [f] (t ++ w)
  | more {f : Field} {fs : List Field} {t w s : List Char} (h : MemberText Blank minus f t)
      (hw : Blank w) (hs : Entries Blank minus fs s) :
      Entries Blank minus (f :: fs) (t ++ (w ++ ',' :: s))

/-- The object of these fields, with any blanks between its tokens. -/
def Spelled (minus : Int) (fs : List Field) (o : List Char) : Prop :=
  ∃ s, Entries Blanks minus fs s ∧ o = '\x7b' :: (s ++ ['\x7d'])

namespace FieldKey

variable {f : Field} (hf : f.IsNamed) {tk : List Char} (h : FieldKey f tk)
include hf h

theorem solid : Solid tk := by
  cases h with
  | bare =>
    exact Solid.of_plain hf.1 fun c hc => (isPlain_of_isFieldChar (hf.2 c hc)).1
  | quoted hq => rcases hq with rfl | rfl <;> exact Solid.of_ends (by decide) (by decide) _

/-- Every pass over a command leaves it in one piece. -/
theorem keeps {d e : Int} (hd : d ≤ e) : Keeps d (Scan.at e) tk (Scan.at e) := by
  cases h with
  | bare => exact keeps_plain hd fun c hc => (isPlain_of_isFieldChar (hf.2 c hc)).1
  | quoted hq =>
    refine keeps_quotes hq (fun c hc => ?_) d e
    obtain ⟨hplain, hbackslash, -⟩ := isPlain_of_isFieldChar (hf.2 c hc)
    refine ⟨?_, hbackslash⟩
    rintro rfl
    rcases hq with rfl | rfl <;> exact absurd (isPlain_spec hplain).1 (by decide)

theorem key : Key f.name tk := by
  have hword : ∀ c ∈ f.name, isWordChar c = true := fun c hc => isWordChar_of_isFieldChar (hf.2 c hc)
  cases h with
  | bare => exact .bare hf.1 hword
  | quoted hq =>
    rcases hq with rfl | rfl
    · exact .quoted (.double (body_of_word hword))
    · exact .quoted (.single (single_of_word hword))

end FieldKey

/-! ### Their normal form -/

theorem Spaces.squeezed (w : List Char) : Spaces (squeezed w) := by
  rw [Mongo.squeezed]
  split
  · exact Spaces.nil
  · exact Spaces.one

theorem passed_spaces {d e : Int} (hd : d ≤ e) {w : List Char} (hw : Spaces w) :
    Passed true d (Scan.at e) w (Scan.at e) :=
  passed_blanks hd (Blanks.of_spaces hw)

namespace MemberText

variable {minus : Int} {f : Field} (hf : f.IsNamed) {t : List Char}
include hf

theorem collapsed (h : MemberText Blanks minus f t) (d : Int) :
    ∃ t', MemberText Spaces minus f t' ∧ CollapsesTo d t t' := by
  cases h with
  | @mk w tk w₁ w₂ hw hk hw₁ hw₂ =>
    refine ⟨_, .mk (Spaces.squeezed w) hk (Spaces.squeezed w₁) (Spaces.squeezed w₂), ?_⟩
    have hkey : CollapsesTo d (w ++ tk) (squeezed w ++ tk) :=
      .behind hw (hk.solid hf) (.of_keeps (hk.keeps hf (Int.le_refl d)))
    have hcolon : CollapsesTo d (w₁ ++ [':']) (squeezed w₁ ++ [':']) :=
      .mark hw₁ (by decide) rfl
    have hnumber : CollapsesTo d (w₂ ++ intText (f.value minus))
        (squeezed w₂ ++ intText (f.value minus)) := by
      have hplain := Term.isPlain_intText (f.value minus)
      exact .behind hw₂ (.of_plain (Term.intText_ne_nil _) hplain)
        (.of_keeps (keeps_plain (Int.le_refl d) hplain))
    have hall := hkey.append (hcolon.append hnumber)
    simp only [List.append_assoc, List.singleton_append] at hall
    exact hall

/-- The passes that cut leave it in one piece. -/
theorem passed (h : MemberText Spaces minus f t) {d e : Int} (hd : d ≤ e) :
    Passed true d (Scan.at e) t (Scan.at e) := by
  cases h with
  | mk hw hk hw₁ hw₂ =>
    have hkey : Passed true d (Scan.at e) _ (Scan.at e) := .of_keeps (hk.keeps hf hd)
    have hcolon : Passed true d (Scan.at e) [':'] (Scan.at e) :=
      .of_keeps (keeps_word hd (by decide))
    have hnumber : Passed true d (Scan.at e) (intText (f.value minus)) (Scan.at e) :=
      .of_keeps (keeps_plain hd (Term.isPlain_intText _))
    exact (passed_spaces hd hw).append (hkey.append
      ((passed_spaces hd hw₁).append (hcolon.append ((passed_spaces hd hw₂).append hnumber))))

end MemberText

namespace Entries

variable {minus : Int} {fs : List Field} (hfs : ∀ f ∈ fs, f.IsNamed) {s : List Char}
include hfs

/-- In front of the closing brace members become members, with spaces in place of all blanks. -/
theorem collapsed (h : Entries Blanks minus fs s) (d : Int) :
    ∃ s', Entries Spaces minus fs s' ∧ ∀ rest,
      collapse (Scan.at d) false (s ++ '\x7d' :: rest) =
        s' ++ collapse (Scan.at d) false ('\x7d' :: rest) := by
  induction h with
  | @last f t w h hw =>
    obtain ⟨t', ht', hcollapse⟩ := h.collapsed (hfs f List.mem_cons_self) d
    refine ⟨t' ++ squeezed w, .last ht' (Spaces.squeezed w), fun rest => ?_⟩
    rw [List.append_assoc, hcollapse, collapse_blanks d hw (by decide), List.append_assoc]
  | @more f fs t w s h hw _ ih =>
    obtain ⟨t', ht', hcollapse⟩ := h.collapsed (hfs f List.mem_cons_self) d
    obtain ⟨s', hs', hrest⟩ := ih fun g hg => hfs g (List.mem_cons_of_mem f hg)
    have hcomma : CollapsesTo d (w ++ [',']) (squeezed w ++ [',']) :=
      .mark hw (by decide) rfl
    refine ⟨t' ++ (squeezed w ++ ',' :: s'), .more ht' (Spaces.squeezed w) hs', fun rest => ?_⟩
    have hall := (hcollapse.append hcomma) (s ++ '\x7d' :: rest)
    rw [hrest] at hall
    simp only [List.append_assoc, List.singleton_append] at hall
    simp only [List.append_assoc, List.cons_append]
    exact hall

theorem passed (h : Entries Spaces minus fs s) {d e : Int} (hd : d < e) :
    Passed true d (Scan.at e) s (Scan.at e) := by
  have hle := Int.le_of_lt hd
  induction h with
  | last h hw => exact (h.passed (hfs _ List.mem_cons_self) hle).append (passed_spaces hle hw)
  | @more f fs t w s h hw _ ih =>
    have hmember := h.passed (hfs f List.mem_cons_self) hle
    have hcomma : Passed true d (Scan.at e) [','] (Scan.at e) := .of_keeps (keeps_comma hd)
    have hrest := ih fun g hg => hfs g (List.mem_cons_of_mem f hg)
    exact hmember.append ((passed_spaces hle hw).append (hcomma.append hrest))

/-- They are members of a relaxed object. -/
theorem relaxed (h : Entries Spaces minus fs s) :
    Relaxed (.members (Bson.relaxedMembers (specification minus fs))) s := by
  have hkey : ∀ {f : Field} {tk : List Char}, f.IsNamed → FieldKey f tk →
      Key (String.ofList f.name).toList tk := by
    intro f tk hf hk
    rw [String.toList_ofList]
    exact hk.key hf
  induction h with
  | @last f t w h hw =>
    cases h with
    | mk hw₀ hk hw₁ hw₂ =>
      have hmember := Relaxed.lastMember hw₀ (hkey (hfs f List.mem_cons_self) hk) hw₁ hw₂
        (.num (.int (f.value minus))) hw
      simp only [List.append_assoc, List.cons_append]
      exact hmember
  | @more f fs t w s h hw _ ih =>
    cases h with
    | mk hw₀ hk hw₁ hw₂ =>
      have hmember := Relaxed.member hw₀ (hkey (hfs f List.mem_cons_self) hk) hw₁ hw₂
        (.num (.int (f.value minus))) hw (ih fun g hg => hfs g (List.mem_cons_of_mem f hg))
      simp only [List.append_assoc, List.cons_append]
      exact hmember

end Entries

/-! ### The document that is read -/

section Specification

variable {fs : List Field} (hfs : IsFieldList fs) {minus : Int}
  (hminus : Decimal.minInt32 ≤ minus ∧ minus ≤ Decimal.maxInt32)

include hminus in
theorem faithfulMembers_specification (fs : List Field) :
    Bson.FaithfulMembers (specification minus fs) := by
  induction fs with
  | nil => rw [specification, List.map_nil, Bson.FaithfulMembers]; trivial
  | cons f fs ih =>
    rw [specification, List.map_cons, Field.entry, Bson.FaithfulMembers, Bson.Faithful, Field.value]
    refine ⟨?_, ih⟩
    split
    · exact hminus
    · decide

theorem nestingMembers_specification (fs : List Field) :
    Json.nestingMembers (Bson.relaxedMembers (specification minus fs)) = 0 := by
  induction fs with
  | nil => rw [specification, List.map_nil, Bson.relaxedMembers, Json.nestingMembers]
  | cons f fs ih =>
    rw [specification] at ih
    rw [specification, List.map_cons, Field.entry, Bson.relaxedMembers, Json.nestingMembers, ih,
      Bson.relaxed, Json.nesting]
    rfl

include hfs in
/-- No field is called as a wrapper is. -/
theorem not_looksWrapped_specification : ¬ Bson.LooksWrapped (specification minus fs) := by
  have hkey : ∀ {k : String} {b : Bson}, specification minus fs = [(k, b)] → '$' ∉ k.toList := by
    intro k b h
    obtain ⟨f, rfl, hf⟩ := List.map_eq_singleton_iff.mp h
    obtain ⟨rfl, -⟩ := Prod.mk.inj hf
    rw [String.toList_ofList]
    intro hc
    exact absurd ((hfs.named f List.mem_cons_self).2 _ hc) (by decide)
  rintro (⟨hex, h⟩ | ⟨v, h⟩)
  · exact hkey h (by decide)
  · exact hkey h (by decide)

include hfs hminus

theorem faithful_specification : (Bson.doc (specification minus fs)).Faithful := by
  rw [Bson.Faithful]
  exact ⟨⟨keys_specification hfs minus, not_looksWrapped_specification hfs⟩,
    faithfulMembers_specification hminus fs⟩

/-- The object is read as the document of its fields. -/
theorem toDocument_specification (operation : String) :
    (Argument.object (Bson.relaxedMembers (specification minus fs))).toDocument operation =
      .ok (specification minus fs) := by
  have hback := Bson.bsonOfJson_relaxed _ (faithful_specification hfs hminus)
  rw [Bson.relaxed] at hback
  exact Bson.toDocument_object.mpr hback

/-- However it is spelled, it is an argument. -/
theorem Spelled.writes {o : List Char} (h : Spelled minus fs o) :
    Writes (.object (Bson.relaxedMembers (specification minus fs))) o := by
  obtain ⟨s, hs, rfl⟩ := h
  obtain ⟨s', hs', hcollapse⟩ := hs.collapsed hfs.named 2
  have hsolid : ∀ m, Solid ('\x7b' :: (m ++ ['\x7d'])) := Solid.of_ends (by decide) (by decide)
  have hbrackets : ∀ d, Passed true d (Scan.at d) ('\x7b' :: (s' ++ ['\x7d'])) (Scan.at d) := fun d =>
    passed_brackets (Or.inr rfl) (Or.inr rfl) (hs'.passed hfs.named (Int.lt_succ d))
  refine ⟨hsolid s, '\x7b' :: (s' ++ ['\x7d']), fun rest => ?_, ⟨hsolid s', ?_⟩, ?_,
    fun ambient => ?_⟩
  · rw [List.cons_append, List.append_assoc, List.singleton_append, collapse_char (by decide),
      show (Scan.at 1).next '\x7b' = Scan.at 2 from rfl, hcollapse, collapse_char (by decide),
      show (Scan.at 2).next '\x7d' = Scan.at 1 from rfl, List.cons_append, List.append_assoc,
      List.singleton_append]
  · exact Passed.isPiece (hbrackets 0)
  · exact .of_passed ((hbrackets 1).weaken (by decide))
  · have hexact := Bson.exact_relaxed _ (faithful_specification hfs hminus)
    rw [Bson.relaxed] at hexact
    have hdepth : (Json.obj (Bson.relaxedMembers (specification minus fs))).nesting ≤
        Json.maxDepth := by
      rw [Json.nesting, nestingMembers_specification]
      decide
    have hread := (Relaxed.obj (hs'.relaxed hfs.named)).ofText trivial (Json.valid_of_exact _ hexact)
      hdepth ambient
    rw [Json.reread_of_exact _ hexact] at hread
    exact hread

end Specification

/-! ## Where a list may stand -/

/-- The query of a command. -/
def Query.ofText (ambient : Ambient) (text : String) : Except ShellError Query :=
  match Command.parse ambient text with
  | .error e => .error (.parse e)
  | .ok c => Query.ofCommand c

/-- The places of a command that take a list of fields. -/
inductive Place where
  | sort
  | select
  /-- Behind the filter of `find` or, where one document is wanted, of `findOne`. -/
  | second (one : Bool) (filter : Argument) (written before behind : List Char)

namespace Place

/-- The operation that starts the query. -/
def starter (one : Bool) : String := if one then "findOne" else "find"

/-- The filter is one argument, with a comma and any blanks between it and the list. -/
def Valid : Place → Prop
  | .second _ filter written before behind =>
    Writes filter written ∧ Blanks before ∧ Blanks behind
  | _ => True

/-- What a hyphen means. -/
def minus : Place → Int
  | .sort => -1
  | _ => 0

theorem minus_fits (place : Place) :
    Decimal.minInt32 ≤ place.minus ∧ place.minus ≤ Decimal.maxInt32 := by
  cases place with
  | sort => decide
  | select => decide
  | second => exact (by decide : Decimal.minInt32 ≤ 0 ∧ 0 ≤ Decimal.maxInt32)

/-- The calls on a collection, with the text `x` in this place. -/
def chain (x : List Char) : Place → List Char
  | .sort => parens "find".toList [] ++ '.' :: parens "sort".toList x
  | .select => parens "find".toList [] ++ '.' :: parens "select".toList x
  | .second one _ written before behind =>
    parens (starter one).toList (written ++ (before ++ ',' :: (behind ++ x)))

/-- The document that an argument is in this place. -/
def documentOf (a : Argument) : Place → Except ShellError Document
  | .sort => sortOf a
  | .select => projectionOf "select" a
  | .second one _ _ _ _ => projectionOf (starter one) a

/-- An object is the document that it is converted to, whichever operation asks. -/
theorem documentOf_object (place : Place) {members : List (String × Json)} {d : Document}
    (h : ∀ operation, (Argument.object members).toDocument operation = .ok d) :
    place.documentOf (.object members) = .ok d := by
  cases place with
  | sort => exact congrArg ofParse (h "sort")
  | select => exact congrArg ofParse (h "select")
  | second one => exact congrArg ofParse (h (starter one))

/-- The query that has the document in this place. -/
def query (d : Document) : Place → Except ShellError Query
  | .sort => .ok { Query.ofFilter [] false with sort := some d }
  | .select => .ok { Query.ofFilter [] false with projection := some d }
  | .second one filter _ _ _ =>
    (Query.start (starter one) [filter]).map fun q => { q with projection := some d }

end Place

section Carried

variable {collection : List Char} (hcollection : IsCollection collection) {a : Argument}
  {x : List Char} (hx : Writes a x) (ambient : Ambient)
include hcollection hx

/-- A method behind a query of all documents does what it asks for. -/
theorem ofText_method {method : String} (hm : IsName method.toList) {ch : Change}
    (hcall : Change.ofCall ⟨method, [a]⟩ = .ok ch) :
    Query.ofText ambient (String.ofList
        (dotFront collection ++ (parens "find".toList [] ++ '.' :: parens method.toList x))) =
      .ok ((Query.ofFilter [] false).changed ch) := by
  have hfind : IsName "find".toList := ⟨by decide, List.all_eq_true.mp (by decide)⟩
  have hchained := Chained.more hfind .none (.last hm (.one hx))
  rw [String.ofList_toList, String.ofList_toList] at hchained
  have hchain : (Query.ofFilter [] false).applyChain [⟨method, [a]⟩] =
      ((Query.ofFilter [] false).changed ch, none) :=
    Query.applyChain_of_accepted _ hcall []
  have hstart : Query.ofOperation "find" [] = .ok (Query.ofFilter [] false) := rfl
  rw [Query.ofText, parse_chained ambient hcollection hchained]
  simp only [Query.ofCommand, hstart, hchain]

/-- The second argument of `find` or `findOne` is the projection of what these start. -/
theorem ofText_second (one : Bool) {filter : Argument} {written before behind : List Char}
    (hwritten : Writes filter written) (hbefore : Blanks before) (hbehind : Blanks behind)
    (hpresent : a.isAbsent = false) {d : Document}
    (hd : projectionOf (Place.starter one) a = .ok d) :
    Query.ofText ambient (String.ofList (dotFront collection ++
        parens (Place.starter one).toList (written ++ (before ++ ',' :: (behind ++ x))))) =
      (Query.start (Place.starter one) [filter]).map fun q => { q with projection := some d } := by
  have hstarter : IsName (Place.starter one).toList := by
    cases one <;> exact ⟨by decide, List.all_eq_true.mp (by decide)⟩
  have hchained := Chained.last hstarter (.two hwritten hbefore hbehind hx)
  rw [String.ofList_toList] at hchained
  have hstart : Query.start (Place.starter one) [filter, a] =
      Query.start (Place.starter one) [filter] := by cases one <;> rfl
  rw [Query.ofText, parse_chained ambient hcollection hchained]
  simp only [Query.ofCommand, Query.ofOperation, hstart, List.drop_one, List.tail_cons]
  cases Query.start (Place.starter one) [filter] with
  | error e => rfl
  | ok q =>
    simp only [hpresent, Bool.false_eq_true, if_false, hd, Query.applyChain]
    rfl

/-- A command is carried out with the document of the argument in its place. -/
theorem ofText_chain {place : Place} (hplace : place.Valid) (hpresent : a.isAbsent = false)
    {d : Document} (hd : place.documentOf a = .ok d) :
    Query.ofText ambient (String.ofList (dotFront collection ++ place.chain x)) =
      place.query d := by
  cases place with
  | sort =>
    have hcall : Change.ofCall ⟨"sort", [a]⟩ = .ok (.sort d) := by
      show (sortOf a).map Change.sort = _
      rw [show sortOf a = .ok d from hd]
      rfl
    exact ofText_method hcollection hx ambient ⟨by decide, List.all_eq_true.mp (by decide)⟩ hcall
  | select =>
    have hcall : Change.ofCall ⟨"select", [a]⟩ = .ok (.projection d) := by
      show (projectionOf "select" a).map Change.projection = _
      rw [show projectionOf "select" a = .ok d from hd]
      rfl
    exact ofText_method hcollection hx ambient ⟨by decide, List.all_eq_true.mp (by decide)⟩ hcall
  | second one filter written before behind =>
    obtain ⟨hwritten, hbefore, hbehind⟩ := hplace
    exact ofText_second hcollection hx ambient one hwritten hbefore hbehind hpresent hd

end Carried

/-- **Field names in one string stand for the object of these fields.**  Where a command takes either,
    both give the same query: the one whose document has every field once, in the order of the names,
    with one for a name alone, and for one behind a hyphen minus one in a sort order and zero in a
    projection. -/
theorem ofText_fieldList {fs : List Field} (hfs : IsFieldList fs) {place : Place}
    (hplace : place.Valid) {collection : List Char} (hcollection : IsCollection collection)
    {s o : List Char} (hs : Listing fs s) (ho : Spelled place.minus fs o) (ambient : Ambient) :
    Query.ofText ambient
          (String.ofList (dotFront collection ++ place.chain ('"' :: (s ++ ['"'])))) =
        Query.ofText ambient (String.ofList (dotFront collection ++ place.chain o)) ∧
      Query.ofText ambient (String.ofList (dotFront collection ++ place.chain o)) =
        place.query (specification place.minus fs) := by
  have hminus := place.minus_fits
  have hwords : place.documentOf (.str (String.ofList s)) = .ok (specification place.minus fs) := by
    rw [← fieldList_listing hfs hs]
    cases place <;> rfl
  have hobject := place.documentOf_object (toDocument_specification hfs hminus)
  have hshort := ofText_chain hcollection (hs.writes hfs.named) ambient hplace rfl hwords
  have hlong := ofText_chain hcollection (ho.writes hfs hminus) ambient hplace rfl hobject
  exact ⟨hshort.trans hlong.symm, hlong⟩

/-- A number and a keyword as names, and a path. -/
theorem ofText_fieldList_findOne :
    Query.ofText ⟨0, fun _ => default⟩ "db.users.findOne(\x7b\x7d, \" 1\t-true  a.b\")" =
        Query.ofText ⟨0, fun _ => default⟩
          "db.users.findOne(\x7b\x7d, \x7b1:1,'true' :\n0 , a.b: 1 \x7d)" ∧
      Query.ofText ⟨0, fun _ => default⟩
          "db.users.findOne(\x7b\x7d, \x7b1:1,'true' :\n0 , a.b: 1 \x7d)" =
        .ok { Query.ofFilter [] true with
          projection := some [("1", .int32 1), ("true", .int32 0), ("a.b", .int32 1)] } := by
  have one : Blanks [' '] := Blanks.of_spaces Spaces.one
  have none : Blanks [] := Blanks.nil
  have line : Blanks ['\n'] := fun c hc => by rw [List.mem_singleton.mp hc]; decide
  have tab : Blanks ['\t'] := fun c hc => by rw [List.mem_singleton.mp hc]; decide
  have two : Blanks [' ', ' '] := List.forall_mem_cons.mpr ⟨by decide, one⟩
  have hfs : IsFieldList [⟨['1'], false⟩, ⟨"true".toList, true⟩, ⟨"a.b".toList, false⟩] := by
    refine ⟨?_, by decide⟩
    intro f hf
    have hnamed : f.name ≠ [] ∧ f.name.all isFieldChar = true := by
      simp only [List.mem_cons, List.not_mem_nil, or_false] at hf
      rcases hf with rfl | rfl | rfl <;> decide
    exact ⟨hnamed.1, List.all_eq_true.mp hnamed.2⟩
  have hplace : Place.Valid (.second true (.object []) "\x7b\x7d".toList [] [' ']) := by
    refine ⟨?_, none, one⟩
    exact Writes.of_term (t := .json (.obj [])) ⟨trivial, ⟨List.nodup_nil, trivial⟩, by decide⟩
  have hs : Listing [⟨['1'], false⟩, ⟨"true".toList, true⟩, ⟨"a.b".toList, false⟩]
      " 1\t-true  a.b".toList :=
    .behind one (.more tab (by decide) (.more two (by decide) (.last none)))
  have ho : Spelled 0 [⟨['1'], false⟩, ⟨"true".toList, true⟩, ⟨"a.b".toList, false⟩]
      "\x7b1:1,'true' :\n0 , a.b: 1 \x7d".toList :=
    ⟨_, .more (.mk none .bare none none) none (.more (.mk none (.quoted (Or.inr rfl)) one line) one
      (.last (.mk one .bare none one) one)), rfl⟩
  have hcollection : IsCollection "users".toList := ⟨by decide, List.all_eq_true.mp (by decide)⟩
  exact ofText_fieldList hfs hplace hcollection hs ho ⟨0, fun _ => default⟩

end Mongo
end Polyshell
