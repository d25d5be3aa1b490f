/-
  Constructor calls by themselves and inside an array.

  Inside a literal a call is found word by word, so blanks may stand in front of its parenthesis,
  and `new` with blanks behind it in front of its name.  A text by itself is only taken for a call
  if it starts with one of `Argument.helperHeads`, to the letter; any other call is an identifier
  there, which stands for its own text.

  1. **What calls make** — with an argument, a call is rendered as the strict text of a number, or
     of the object of an identifier or a date (`Constructor.exists_made`), and nothing but the
     argument has a say in that (`Constructor.render_congr`).

  2. **Where they stand** — a call is rewritten to that text wherever no key can stand
     (`ConstructorCall.inside`), and an array of it was only read if it could be rendered
     (`ConstructorCall.exists_render`).

  3. **The crux** — the call has one value, by itself and inside the array, exactly if it starts
     with one of those beginnings (`constructor_alone_iff`).
-/
import Polyshell.Proofs.Mongo.Scalars

namespace Polyshell.Mongo

open Polyshell.Text
open Polyshell.Json (Body Strict stringText)

/-! ## What calls make -/

/-- The values that calls make: numbers, and the objects of identifiers and dates. -/
inductive Made : Json → Prop
  | number (n : Json.Number) : Made (.num n)
  | id (hex : String) : Made (.obj [("$oid", .str hex)])
  | date (v : Json) : Made (.obj [("$date", v)])

/-- None of them is a text. -/
theorem Made.ne_str {v : Json} (h : Made v) (s : String) : bsonOfJson v ≠ .ok (.str s) := by
  intro he
  cases h with
  | number n =>
    rw [bsonOfJson, Bson.ofNumber] at he
    split at he
    · rw [Bson.ofInt] at he
      split at he <;> cases he
    · cases he
  | id hex =>
    rw [bsonOfJson, oidOfText] at he
    split at he <;> cases he
  | date v =>
    rw [bsonOfJson] at he
    unfold dateOfJson at he
    split at he
    · split at he <;> cases he
    · split at he <;> cases he
    · cases he

/-- A printed string is strict. -/
theorem strict_stringText (d : Nat) (s : String) : Strict d (.value (.str s)) (stringText s) := by
  have hstrict := Strict.str (d := d) (Body.escaped s.toList)
  rwa [String.ofList_toList] at hstrict

/-- An object with one member, written without blanks. -/
theorem strict_member {d : Nat} {key : String} (hkey : Body key.toList key.toList) {v : Json}
    {s : List Char} (h : Strict d (.value v) s) : Strict (d + 1) (.value (.obj [(key, v)]))
      ('\x7b' :: '"' :: (key.toList ++ '"' :: ':' :: (s ++ ['\x7d']))) := by
  have hstrict := Strict.obj (.lastMember Json.Spaces.nil hkey Json.Spaces.nil Json.Spaces.nil h
    Json.Spaces.nil)
  simp only [List.nil_append, List.append_nil, List.cons_append, List.append_assoc,
    String.ofList_toList] at hstrict
  exact hstrict

namespace Constructor

/-- With an argument, nothing is taken from outside the text. -/
theorem render_congr {arg : List Char} (hne : arg ≠ []) (con : Constructor)
    (ambient ambient' : Ambient) (place place' : Nat) :
    con.render ambient place arg = con.render ambient' place' arg := by
  have hempty : arg.isEmpty = false := List.isEmpty_eq_false_iff.mpr hne
  cases con with
  | numberInt => rfl
  | numberLong => rfl
  | _ => simp only [render, hempty, Bool.false_eq_true, if_false]

/-- With an argument, what is rendered is the strict text of a value. -/
theorem exists_made {con : Constructor} {ambient : Ambient} {place : Nat} {arg s : List Char}
    (hne : arg ≠ []) (h : con.render ambient place arg = .ok s) :
    ∃ v, Made v ∧ ∀ d, Strict (d + 1) (.value v) s := by
  have hempty : arg.isEmpty = false := List.isEmpty_eq_false_iff.mpr hne
  have hnumber : ∀ {t n} (d : Nat), number? t = some n → Strict d (.value (.num n.reread)) n.text :=
    fun _ hn => .num (Json.Number.numeral_of_valid (number?_spec hn).1)
  cases con with
  | objectId =>
    simp only [render, hempty, Bool.false_eq_true, if_false] at h
    split at h
    · next hex _ =>
      cases h
      exact ⟨_, .id (String.ofList hex), fun d =>
        strict_member (Body.escaped "$oid".toList) (strict_stringText d _)⟩
    · cases h
  | numberInt | numberLong =>
    simp only [render] at h
    split at h
    · next n hn =>
      cases h
      exact ⟨_, .number n.reread, fun d => hnumber (d + 1) hn⟩
    · cases h
  | isoDate | date =>
    simp only [render, hempty, Bool.false_eq_true, if_false] at h
    split at h
    · cases h
      exact ⟨_, .date _, fun d =>
        strict_member (Body.escaped "$date".toList) (strict_stringText d _)⟩
    · split at h
      · next n hn =>
        cases h
        exact ⟨_, .date _, fun d => strict_member (Body.escaped "$date".toList) (hnumber d hn)⟩
      · cases h

end Constructor

/-! ## How calls are written -/

/-- How a constructor is written: by its name, or with `new` in front of it if it can stand
    there. -/
inductive ConstructorHead : Constructor → List Char → Prop
  | name (con : Constructor) : ConstructorHead con con.name.toList
  | new {con : Constructor} {w : List Char} (hcon : con = .objectId ∨ con = .date) (hw : Blanks w)
      (hne : w ≠ []) : ConstructorHead con ("new".toList ++ (w ++ con.name.toList))

/-- `ConstructorCall con arg t` — `t` is a call of `con` with the argument `arg`, which ends at the
    first closing parenthesis. -/
inductive ConstructorCall (con : Constructor) (arg : List Char) : List Char → Prop
  | mk {h w : List Char} (hhead : ConstructorHead con h) (hw : Blanks w) (harg : ')' ∉ arg) :
      ConstructorCall con arg (h ++ (w ++ '(' :: (arg ++ [')'])))

/-- The name of a constructor is cut off in front of what ends a word. -/
theorem span_name (con : Constructor) {rest : List Char} (h : EndsWord rest) :
    (con.name.toList ++ rest).takeWhile isNameChar = con.name.toList ∧
      (con.name.toList ++ rest).dropWhile isNameChar = rest := by
  have hname : ∀ c ∈ con.name.toList, isNameChar c = true :=
    List.all_eq_true.mp (by cases con <;> decide)
  rw [List.takeWhile_append_of_pos hname, List.dropWhile_append_of_pos hname]
  cases rest with
  | nil => exact ⟨List.append_nil _, rfl⟩
  | cons c r =>
    have hc : isNameChar c = false := (Bool.or_eq_false_iff.mp (h c r rfl)).1
    rw [List.takeWhile_cons, List.dropWhile_cons, hc]
    exact ⟨List.append_nil _, rfl⟩

namespace ConstructorHead

variable {con : Constructor} {h : List Char}

/-- No such text begins with a blank, the first character of a number, a quote or a bracket. -/
theorem first (hh : ConstructorHead con h) : ∃ c r, h = c :: r ∧ isBlank c = false ∧ c ≠ '-' ∧
    Decimal.isDigit c = false ∧ Scan.isQuote c = false ∧ ¬ (c = '[' ∨ c = '\x7b') := by
  cases hh with
  | name => cases con <;> exact ⟨_, _, rfl, by decide⟩
  | new hcon hw hne => exact ⟨'n', _, rfl, by decide⟩

/-- The word in front stands for a call of the constructor, in the text behind its name. -/
theorem exists_word (hh : ConstructorHead con h) :
    ∃ w r, h = w ++ r ∧ w ≠ [] ∧ (∀ c ∈ w, isWordChar c = true) ∧ ∀ rest, EndsWord rest →
      EndsWord (r ++ rest) ∧ wordSense w (r ++ rest) = .call con rest := by
  cases hh with
  | name =>
    refine ⟨con.name.toList, [], (List.append_nil _).symm, ?_, ?_, fun rest hrest => ⟨hrest, ?_⟩⟩
    · cases con <;> decide
    · exact List.all_eq_true.mp (by cases con <;> decide)
    · cases con <;> rfl
  | @new w hcon hw hne =>
    refine ⟨"new".toList, w ++ con.name.toList, rfl, by decide,
      List.all_eq_true.mp (by decide), fun rest hrest => ⟨?_, ?_⟩⟩
    · obtain ⟨b, w, rfl⟩ := List.exists_cons_of_ne_nil hne
      intro c r hc
      rw [← (List.cons.inj hc).1]
      exact (isBlank_other (hw b List.mem_cons_self)).2.2.2
    · have hstart : trimStart (w ++ con.name.toList ++ rest) = con.name.toList ++ rest := by
        rw [List.append_assoc, trimStart_blanks hw]
        cases con <;> exact trimStart_of_solid (by decide) _
      rw [wordSense, if_pos rfl, hstart]
      simp only [(span_name con hrest).1, (span_name con hrest).2]
      rcases hcon with rfl | rfl <;> rfl

end ConstructorHead

/-- The call of a constructor stands for what its argument is rendered as. -/
theorem callText_call (ambient : Ambient) (con : Constructor) {w arg : List Char} (hw : Blanks w)
    (harg : ')' ∉ arg) (behind : List Char) :
    callText ambient con (w ++ '(' :: (arg ++ ')' :: behind)) =
      (con.render ambient behind.length (trim arg)).map fun v => (v, behind) := by
  rw [callText, trimStart_blanks hw, trimStart_of_solid (by decide)]
  simp only [cut_append harg]

namespace ConstructorCall

variable {con : Constructor} {arg t : List Char}

/-- The word in front of a call stands for it, whatever follows. -/
theorem exists_word (ht : ConstructorCall con arg t) (rest : List Char) :
    ∃ w r behindName, t ++ rest = w ++ r ∧ w ≠ [] ∧ (∀ c ∈ w, isWordChar c = true) ∧ EndsWord r ∧
      wordSense w r = .call con behindName ∧ ∀ ambient, callText ambient con behindName =
        (con.render ambient rest.length (trim arg)).map fun v => (v, rest) := by
  obtain ⟨hhead, hw, harg⟩ := ht
  obtain ⟨word, r, rfl, hne, hword, hsense⟩ := hhead.exists_word
  obtain ⟨hends, hsense⟩ := hsense _ (EndsWord.of_blanks hw (c := '(') (by decide) _)
  refine ⟨word, _, _, ?_, hne, hword, hends, hsense, fun ambient =>
    callText_call ambient con hw harg rest⟩
  simp only [List.append_assoc, List.cons_append, List.nil_append]

/-- Where no key can stand, a call is rewritten to what it stands for. -/
theorem inside (ht : ConstructorCall con arg t) {s : List Char}
    (hs : ∀ ambient place, con.render ambient place (trim arg) = .ok s) : Inside t s := by
  intro ambient out rest hkey _
  obtain ⟨w, r, behindName, heq, hne, hword, hends, hsense, hcall⟩ := ht.exists_word rest
  have hcall := hcall ambient
  rw [hs] at hcall
  rw [heq, rewritten_call ambient out hne hword hends (not_isKeyPosition hkey r) hsense hcall]

/-- An array of a call is only read if the call could be rendered. -/
theorem exists_render (ht : ConstructorCall con arg t) {ambient : Ambient} {w' : List Char}
    {a : Argument} (hread : Argument.ofText ambient ('[' :: ((t ++ w') ++ [']'])) = .ok a) :
    ∃ place s, con.render ambient place (trim arg) = .ok s := by
  have hsolid : Solid ('[' :: ((t ++ w') ++ [']'])) := Solid.of_ends (by decide) (by decide) _
  rw [Argument.ofText, hsolid.trim, ofTrimmed_of_bracket ambient (Or.inl rfl)] at hread
  obtain ⟨z, -, hz, -, -⟩ := exists_strict hread
  rw [rewritten_open ambient [] (Or.inl rfl), List.append_assoc] at hz
  obtain ⟨w, r, behindName, heq, hne, hword, hends, hsense, hcall⟩ := ht.exists_word (w' ++ [']'])
  have hkey : ¬ OpensKey ['['] := by unfold OpensKey; decide
  rw [heq] at hz
  obtain ⟨v, behind, hcalled, -⟩ :=
    exists_callText hne hword hends (not_isKeyPosition hkey r) hsense hz
  rw [hcall] at hcalled
  cases hrender : con.render ambient (w' ++ [']']).length (trim arg) with
  | error e => rw [hrender] at hcalled; cases hcalled
  | ok s => exact ⟨_, s, hrender⟩

/-! ### By itself -/

theorem first (ht : ConstructorCall con arg t) : ∃ c r, t = c :: r ∧ isBlank c = false ∧ c ≠ '-' ∧
    Decimal.isDigit c = false ∧ Scan.isQuote c = false ∧ ¬ (c = '[' ∨ c = '\x7b') := by
  obtain ⟨hhead, hw, harg⟩ := ht
  obtain ⟨c, r, rfl, hc⟩ := hhead.first
  exact ⟨c, _, rfl, hc⟩

theorem solid (ht : ConstructorCall con arg t) : Solid t := by
  obtain ⟨c, r, hcons, hblank, -⟩ := ht.first
  refine ⟨⟨c, r, hcons, hblank⟩, ?_⟩
  cases ht with
  | @mk h w => exact ⟨h ++ (w ++ '(' :: arg), ')', by simp, by decide⟩

/-- A call by itself is a literal if it begins like one, and else an identifier. -/
theorem ofTrimmed (ht : ConstructorCall con arg t) (ambient : Ambient) :
    Argument.ofTrimmed ambient t = if Argument.isLiteral t then Argument.ofLiteral ambient t
      else .ok (.raw (String.ofList t)) := by
  have hparen : '(' ∈ t := by
    obtain ⟨hhead, hw, harg⟩ := ht
    simp
  have hword : ∀ w ∈ valueWords, t ≠ w.toList := by
    rintro w hw rfl
    have hall : ∀ w ∈ valueWords, '(' ∉ w.toList := by decide
    exact hall w hw hparen
  obtain ⟨c, r, rfl, -, hm, hd, hq, -⟩ := ht.first
  rw [ofTrimmed_of_not_word ambient hword, number?_eq_none hm hd, dequote?_eq_none hq]

/-- It begins like a literal exactly if it starts with one of the beginnings of calls, with any
    blanks behind it. -/
theorem isLiteral_iff (ht : ConstructorCall con arg t) (w' : List Char) :
    Argument.isLiteral t = true ↔ ∃ s ∈ Argument.helperHeads, s.toList <+: t ++ w' := by
  constructor
  · intro hliteral
    rcases isLiteral_cases hliteral with ⟨o, r, ho, rfl⟩ | ⟨s, hs, hp⟩
    · obtain ⟨c, r', hcons, -, -, -, -, hbracket⟩ := ht.first
      obtain ⟨rfl, -⟩ := List.cons.inj hcons
      exact absurd ho hbracket
    · exact ⟨s, hs, hp.trans (List.prefix_append t w')⟩
  · rintro ⟨s, hs, hp⟩
    have hclosed : ')' ∈ t := by
      obtain ⟨hhead, hw, harg⟩ := ht
      simp
    have hopen : ∀ s ∈ Argument.helperHeads, ')' ∉ s.toList := by decide
    have hprefix : s.toList <+: t := by
      rcases List.prefix_or_prefix_of_prefix hp (List.prefix_append t w') with h | h
      · exact h
      · exact absurd (h.subset hclosed) (hopen s hs)
    rw [Argument.isLiteral, Bool.or_eq_true, List.any_eq_true]
    exact Or.inr ⟨s, hs, List.isPrefixOf_iff_prefix.mpr hprefix⟩

end ConstructorCall

/-! ## Calls by themselves and inside an array -/

/-- An argument that was read as JSON is converted as JSON. -/
theorem toBson_ofJson (v : Json) : (Argument.ofJson v).toBson = bsonOfJson v := by
  cases v with
  | arr items => rfl
  | obj members => rfl
  | _ => rw [bsonOfJson]; rfl

/-- A text that becomes a strict value where it stands alone is a literal of that value. -/
theorem ofLiteral_of_inside {t s : List Char} {v : Json} (ht : Inside t s)
    (hs : Strict 127 (.value v) s) (ambient : Ambient) :
    Argument.ofLiteral ambient t = .ok (Argument.ofJson v) := by
  have hkey : ¬ OpensKey [] := by unfold OpensKey; decide
  have hrewritten := ht ambient [] [] hkey (fun _ _ h => nomatch h)
  rw [List.append_nil, List.append_nil, rewritten_nil, List.reverse_reverse] at hrewritten
  have hstrict : strictText ambient t = .ok s := by
    rw [rewritten] at hrewritten
    rw [strictText, hrewritten]
  have hread : Json.read s = .ok v := hs.readWithin
  rw [Argument.ofLiteral, hstrict]
  simp only [hread]

section Alone

variable {con : Constructor} {arg t w' : List Char} (ht : ConstructorCall con arg t)
  (harg : trim arg ≠ []) (hw' : Blanks w') {ambient : Ambient} {v : Json}
  (hread : Argument.ofText ambient ('[' :: ((t ++ w') ++ [']'])) = .ok (.array [v]))
include ht harg hw' hread

/-- The only element of the array of a call is what the call makes. -/
theorem ConstructorCall.exists_element :
    Made v ∧ ∃ s, Inside t s ∧ ∀ d, Strict (d + 1) (.value v) s := by
  obtain ⟨place, s, hrender⟩ := ht.exists_render hread
  obtain ⟨v₀, hmade, hstrict⟩ := Constructor.exists_made harg hrender
  have hinside : Inside t s := ht.inside fun ambient' place' => by
    rw [con.render_congr harg ambient' ambient place' place, hrender]
  have hread' := hread
  rw [← List.nil_append (t ++ w'), ofText_singleton_iff (hstrict 125) Json.Spaces.nil Blanks.nil hw'
    ambient (by rwa [List.append_nil])] at hread'
  obtain ⟨-, -, rfl⟩ := hread'
  exact ⟨hmade, s, hinside, hstrict⟩

/-- **A constructor call means the same by itself and inside an array** exactly if it starts with
    one of the beginnings that make a text a literal: any other call is an identifier by itself. -/
theorem constructor_alone_iff (ambient' : Ambient) :
    (∃ a, Argument.ofText ambient' (t ++ w') = .ok a ∧ a.toBson = bsonOfJson v) ↔
      ∃ s ∈ Argument.helperHeads, s.toList <+: t ++ w' := by
  obtain ⟨hmade, s, hinside, hstrict⟩ := ht.exists_element harg hw' hread
  have hself : Argument.ofText ambient' (t ++ w') = Argument.ofTrimmed ambient' t := by
    rw [Argument.ofText, ← List.nil_append (t ++ w'), ht.solid.trim_padded Blanks.nil hw']
  rw [← ht.isLiteral_iff w', hself, ht.ofTrimmed]
  constructor
  · rintro ⟨a, ha, hbson⟩
    by_contra hliteral
    rw [if_neg hliteral] at ha
    cases ha
    exact hmade.ne_str _ hbson.symm
  · intro hliteral
    rw [if_pos hliteral]
    exact ⟨_, ofLiteral_of_inside hinside (hstrict 126) ambient', toBson_ofJson v⟩

end Alone

/-- A date with blanks around its argument and behind it. -/
theorem constructor_alone_iff_date :
    Argument.ofText ⟨0, fun _ => ⟨0⟩⟩ "[new Date( 5 )\t]".toList =
        .ok (.array [.obj [("$date", .num (.int 5))]]) ∧
      ∃ a, Argument.ofText ⟨1, fun _ => ⟨1⟩⟩ "new Date( 5 )\t".toList = .ok a ∧
        a.toBson = bsonOfJson (.obj [("$date", .num (.int 5))]) := by
  have hread : Argument.ofText ⟨0, fun _ => ⟨0⟩⟩ "[new Date( 5 )\t]".toList =
      .ok (.array [.obj [("$date", .num (.int 5))]]) := rfl
  have hhead : ConstructorHead .date "new Date".toList :=
    .new (w := [' ']) (Or.inr rfl) (by decide) (by decide)
  have hcall : ConstructorCall .date " 5 ".toList "new Date( 5 )".toList :=
    .mk (w := []) hhead Blanks.nil (by decide)
  have hbehind : Blanks ['\t'] := by decide
  exact ⟨hread, (constructor_alone_iff hcall (by decide) hbehind hread ⟨1, fun _ => ⟨1⟩⟩).mpr
    ⟨"new Date(", by decide, List.isPrefixOf_iff_prefix.mp rfl⟩⟩

/-- The same identifier inside an array, and a text by itself. -/
example :
    Argument.ofText ⟨0, fun _ => ⟨0⟩⟩ "[new ObjectId('507f1f77bcf86cd799439011')]".toList =
        .ok (.array [.obj [("$oid", .str "507f1f77bcf86cd799439011")]]) ∧
      Argument.ofText ⟨0, fun _ => ⟨0⟩⟩ "new ObjectId('507f1f77bcf86cd799439011')".toList =
        .ok (.raw "new ObjectId('507f1f77bcf86cd799439011')") := ⟨rfl, rfl⟩

end Polyshell.Mongo
