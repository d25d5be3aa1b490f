/-
  Reading a command gives back what it was written from.

  1. **Chains** — a chain in normal form is cut into the texts of its calls
     (`ChainText.chainCalls`): the cut falls behind the parenthesis that closes a call, and the text
     inside the parentheses, of whatever terms, is passed over (`PassedOver`).

  2. **Calls** — a call is cut at its first parenthesis, for a name has none, and what is inside is
     cut into the texts of the arguments (`Separated.argumentPieces?`).

  3. **Commands** — `parse_rendered`: for every text of a command, whatever blanks stand around its
     commas and dots, the command comes back.
-/
import Polyshell.Proofs.Mongo.Rendering

namespace Polyshell.Mongo

open Polyshell.Text

/-! ## Inside the parentheses of a call -/

/-- Inside a call the text is read over. -/
def PassedOver (t : List Char) : Prop :=
  ∀ whole seen rest, insideCall whole (Scan.at 1) true seen (t ++ rest) =
    insideCall whole (Scan.at 1) true (t.reverse ++ seen) rest

namespace PassedOver

theorem nil : PassedOver [] := fun _ _ _ => rfl

theorem append {a b : List Char} (ha : PassedOver a) (hb : PassedOver b) : PassedOver (a ++ b) := by
  intro whole seen rest
  rw [List.append_assoc, ha, hb, List.reverse_append, List.append_assoc]

theorem of_passed {b : Bool} {t : List Char} (h : Passed b 0 (Scan.at 1) t (Scan.at 1)) :
    PassedOver t :=
  fun whole seen rest => insideCall_passed (Int.le_refl 0) whole rest true seen h

end PassedOver

theorem Separated.passedOver {ts : List Term} {s : List Char} (h : Separated ts s) :
    PassedOver s := by
  have hterm : ∀ {t : Term}, t.Valid → PassedOver t.text := fun ht =>
    .of_passed ((Term.keeps ht 1).weaken (by decide))
  have hblanks : ∀ {w : List Char}, Blanks w → PassedOver w := fun hw =>
    .of_passed (passed_blanks (by decide) hw)
  induction h with
  | last ht => exact hterm ht
  | more ht hw hw' _ ih =>
    exact (hterm ht).append ((hblanks hw).append
      (.append (.of_passed (keeps_comma (by decide))) ((hblanks hw').append ih)))

/-! ## The calls of a chain -/

/-- A name and parentheses, up to the closing one. -/
theorem insideCall_parens {name s : List Char} (hn : IsName name) (hs : PassedOver s)
    (whole rest : List Char) {seen : List Char} (hseen : Blanks seen) :
    insideCall whole (Scan.at 0) false seen ((name ++ '(' :: (s ++ [')'])) ++ rest) =
      match betweenCalls whole rest with
      | .ok calls => .ok ((name ++ '(' :: (s ++ [')'])) :: calls)
      | .error e => .error e := by
  have hopen : ∀ seen rest, insideCall whole (Scan.at 0) false seen ('(' :: rest) =
      insideCall whole (Scan.at 1) true ('(' :: seen) rest := fun _ _ => by
    rw [insideCall]
    rfl
  have hpiece : trim (')' :: (s.reverse ++ '(' :: (name.reverse ++ seen))).reverse =
      name ++ '(' :: (s ++ [')']) := by
    have htrim := (CallText.solid_parens hn s).trim_padded hseen.reverse Blanks.nil
    simpa using htrim
  rw [List.append_assoc, insideCall_passed (Int.le_refl 0) whole _ false seen (hn.keeps 0),
    List.cons_append, hopen, List.append_assoc, hs, List.singleton_append, insideCall, ← hpiece]
  rfl

theorem CallText.insideCall {c : WrittenCall} {t : List Char} (h : CallText c t)
    (whole rest : List Char) {seen : List Char} (hseen : Blanks seen) :
    insideCall whole (Scan.at 0) false seen (t ++ rest) =
      match betweenCalls whole rest with
      | .ok calls => .ok (t :: calls)
      | .error e => .error e := by
  cases h with
  | noArgs hn => exact insideCall_parens hn PassedOver.nil whole rest hseen
  | args hn hs => exact insideCall_parens hn hs.passedOver whole rest hseen

/-- Between two calls there are blanks and a dot. -/
theorem betweenCalls_dot (whole : List Char) {w : List Char} (hw : Blanks w) (rest : List Char) :
    betweenCalls whole (w ++ '.' :: rest) = Mongo.insideCall whole (Scan.at 0) false [] rest := by
  induction w with
  | nil => rfl
  | cons b w ih =>
    rw [List.cons_append, betweenCalls, hw b List.mem_cons_self, if_pos rfl]
    exact ih fun x hx => hw x (List.mem_cons_of_mem b hx)

/-- A chain is cut into the texts of its calls. -/
theorem ChainText.insideCall {cs : List WrittenCall} {s : List Char} (h : ChainText cs s) :
    ∃ ts, List.Forall₂ CallText cs ts ∧ ∀ whole seen, Blanks seen →
      Mongo.insideCall whole (Scan.at 0) false seen s = .ok ts := by
  induction h with
  | @last c t h =>
    refine ⟨[t], .cons h .nil, fun whole seen hseen => ?_⟩
    have hcall := h.insideCall whole [] hseen
    rw [List.append_nil] at hcall
    rw [hcall, betweenCalls]
  | @more c cs t w w' s h hw hw' _ ih =>
    obtain ⟨ts, hts, hcut⟩ := ih
    refine ⟨t :: ts, .cons h hts, fun whole seen hseen => ?_⟩
    rw [h.insideCall whole _ hseen, betweenCalls_dot whole hw,
      insideCall_passed (Int.le_refl 0) whole _ false [] (passed_blanks (Int.le_refl 0) hw'),
      List.append_nil, hcut whole _ hw'.reverse]

/-! ## The arguments of a call -/

theorem any_isEmpty_eq_false {pieces : List (List Char)} (h : [] ∉ pieces) :
    pieces.any List.isEmpty = false := by
  rw [List.any_eq_false]
  intro t ht hempty
  exact h (List.isEmpty_iff.mp hempty ▸ ht)

/-- Only an empty piece at the end is dropped. -/
theorem dropEmptyLast_eq_self {pieces : List (List Char)} (h : [] ∉ pieces) :
    dropEmptyLast pieces = pieces := by
  unfold dropEmptyLast
  split
  · next hlast => exact absurd (List.mem_of_getLast? hlast) h
  · rfl

namespace Separated

variable {ts : List Term} {s : List Char}

/-- The pieces are the texts of the arguments. -/
theorem argumentPieces? (h : Separated ts s) : ∀ {seen}, Blanks seen →
    Mongo.argumentPieces? (Scan.at 0) seen s = some (ts.map Term.text) := by
  induction h with
  | @last t ht =>
    intro seen hseen
    have hkeeps := argumentPieces?_passed [] seen (Term.keeps ht 0)
    have htrim := (Term.solid ht).trim_padded hseen.reverse Blanks.nil
    rw [List.append_nil] at hkeeps htrim
    rw [hkeeps, Mongo.argumentPieces?, if_pos (by rfl), List.reverse_append, List.reverse_reverse,
      htrim]
    rfl
  | @more t ts w w' s ht hw hw' h ih =>
    intro seen hseen
    have htrim := (Term.solid ht).trim_padded hseen.reverse hw
    have hcut : ∀ seen rest, Mongo.argumentPieces? (Scan.at 0) seen (',' :: rest) =
        (Mongo.argumentPieces? (Scan.at 0) [] rest).map (trim seen.reverse :: ·) := fun _ _ => by
      rw [Mongo.argumentPieces?]
      rfl
    -- the blanks behind the comma are seen by the next argument, which trims them off
    rw [argumentPieces?_passed _ seen (Term.keeps ht 0),
      argumentPieces?_passed _ _ (passed_blanks (Int.le_refl 0) hw), hcut,
      argumentPieces?_passed _ _ (passed_blanks (Int.le_refl 0) hw'), List.append_nil,
      ih hw'.reverse, List.reverse_append, List.reverse_append, List.reverse_reverse,
      List.reverse_reverse, List.append_assoc, htrim]
    rfl

theorem valid (h : Separated ts s) : ∀ t ∈ ts, t.Valid := by
  induction h with
  | last ht => exact fun t hmem => List.mem_singleton.mp hmem ▸ ht
  | more ht _ _ _ ih => exact List.forall_mem_cons.mpr ⟨ht, ih⟩

theorem argumentTexts (h : Separated ts s) : argumentTexts s = .ok (ts.map Term.text) := by
  -- no piece is empty, so none is dropped and none is a fault
  have hne : [] ∉ ts.map Term.text := by
    intro hmem
    obtain ⟨t, ht, hempty⟩ := List.mem_map.mp hmem
    exact (Term.solid (h.valid t ht)).ne_nil hempty
  rw [Mongo.argumentTexts, h.solid.trim, if_neg (by simp [h.solid.ne_nil]),
    show Scan.start = Scan.at 0 from rfl, h.argumentPieces? Blanks.nil]
  show (if (dropEmptyLast _).any _ then _ else _) = _
  rw [dropEmptyLast_eq_self hne, any_isEmpty_eq_false hne, if_neg Bool.false_ne_true]

end Separated

theorem readArguments_texts (ambient : Ambient) {ts : List Term} (h : ∀ t ∈ ts, t.Valid) :
    Command.readArguments ambient (ts.map Term.text) = .ok (ts.map Term.argument) := by
  induction ts with
  | nil => rfl
  | cons t ts ih =>
    obtain ⟨ht, hts⟩ := List.forall_mem_cons.mp h
    rw [List.map_cons, Command.readArguments, Term.ofText_argument ht ambient, ih hts]
    rfl

/-! ## Calls -/

theorem IsName.not_mem {name : List Char} (hn : IsName name) {c : Char}
    (hc : isNameChar c = false) : c ∉ name := by
  intro hmem
  rw [hn.2 c hmem] at hc
  cases hc

/-- The name is what stands before the first parenthesis. -/
theorem callParts_parens {name : List Char} (hn : IsName name) (s : List Char) :
    callParts (name ++ '(' :: (s ++ [')'])) = .ok (name, s) := by
  rw [callParts, (CallText.solid_parens hn s).trim, cut_append (hn.not_mem (by decide))]
  simp only [dropLast?, List.getLast?_concat, if_true, List.dropLast_concat, hn.solid.trim]
  rw [if_pos]
  rw [Bool.and_eq_true, List.all_eq_true]
  exact ⟨by simp [hn.1], hn.2⟩

theorem CallText.readCall (ambient : Ambient) {c : WrittenCall} {t : List Char}
    (h : CallText c t) : Command.readCall ambient t = .ok c.call := by
  cases h with
  | noArgs hn =>
    rw [Command.readCall, callParts_parens hn]
    rfl
  | args hn hs =>
    rw [Command.readCall, callParts_parens hn]
    show (do
      let texts ← argumentTexts _
      let args ← Command.readArguments ambient texts
      return (⟨_, args⟩ : Call)) = _
    rw [hs.argumentTexts]
    show (do
      let args ← Command.readArguments ambient _
      return (⟨_, args⟩ : Call)) = _
    rw [readArguments_texts ambient hs.valid]
    rfl

theorem readCalls_texts (ambient : Ambient) {cs : List WrittenCall} {ts : List (List Char)}
    (h : List.Forall₂ CallText cs ts) :
    Command.readCalls ambient ts = .ok (cs.map WrittenCall.call) := by
  induction h with
  | nil => rfl
  | cons hc _ ih =>
    rw [Command.readCalls, hc.readCall, ih]
    rfl

/-! ## Commands -/

/-- The collection ends at the first dot. -/
theorem collectionParts?_collection {collection : List Char} (hc : IsCollection collection)
    (s : List Char) :
    Command.collectionParts? (collection ++ '.' :: s) = some (some collection, s) := by
  have hplain : ∀ c ∈ collection, isPlain c = true ∧ c ≠ '.' := fun c hmem =>
    isPlain_of_isCollectionChar (hc.2 c hmem)
  have hdot : '.' ∉ collection := fun hmem => (hplain _ hmem).2 rfl
  have hparen : ¬ collection.contains '(' = true := by
    rw [List.contains_iff_mem]
    exact fun hmem => absurd (hplain _ hmem).1 (by decide)
  have hsolid : Solid collection := Solid.of_all hc.1 fun c hmem =>
    Term.not_isBlank_of_isPlain (hplain c hmem).1
  rw [Command.collectionParts?, cut_append hdot]
  show (if collection.contains '(' then _ else _) = _
  rw [if_neg hparen, hsolid.trim]

theorem ExpressionText.ofNormalized (ambient : Ambient) {collection t : List Char}
    {c : WrittenCall} {cs : List WrittenCall} (h : ExpressionText collection (c :: cs) t) :
    Command.ofNormalized ambient t = .ok ⟨String.ofList collection, c.call.method, c.call.args,
      cs.map WrittenCall.call⟩ := by
  obtain ⟨hc, hs⟩ := h
  rename_i s
  obtain ⟨ts, hts, hcut⟩ := hs.insideCall
  have hchain : chainCalls s = .ok ts := hcut s [] Blanks.nil
  have hempty : collection.isEmpty = false := List.isEmpty_eq_false_iff.mpr hc.1
  have hname : (!collection.isEmpty && collection.all Command.isCollectionChar) = true := by
    rw [hempty, Bool.not_false, Bool.true_and, List.all_eq_true]
    exact hc.2
  -- no keyword begins with a `d`, so only the third form is left
  show Command.ofExpression ambient (collection ++ '.' :: s) _ = _
  rw [Command.ofExpression, collectionParts?_collection hc]
  simp only [Option.getD_some, hname, Bool.not_true, Bool.and_false, if_neg Bool.false_ne_true]
  rw [hchain]
  show (do
    let calls ← Command.readCalls ambient ts
    Command.ofCalls _ s collection calls) = _
  rw [readCalls_texts ambient hts]
  show Command.ofCalls _ s collection (c.call :: cs.map WrittenCall.call) = _
  simp only [Command.ofCalls, hempty, Bool.false_and, Bool.false_eq_true, if_false]

end Polyshell.Mongo
