/-
  What the text of a server's error shows of its report.

  1. **Parts** — `ShowsAll e`: the message, the name, the number, the details and the statement, each
     of them where it is there, stand in the text that the user is shown.

  2. **The name** — all parts but the name are shown whatever else is there.  The name is shown next
     to a number; without a number the text is the one of the error without its name
     (`message_of_code_eq_none`), so the name is seen only where that text happens to repeat it.

  3. **Servers** — a document server gives no name without a number, nor does a relational server that
     numbers its errors, so nothing of theirs is hidden.  A key-value server gives no numbers: of a
     reply `-CODE detail` the user is shown the detail, and the code word only if it is part of that.
-/
import Polyshell.Redis.Session
import Polyshell.Redis.Resp

namespace Polyshell

/-! ## Parts of a text -/

/-- The text has `part` in it. -/
def Shows (text part : String) : Prop := part.toList <:+: text.toList

instance (text part : String) : Decidable (Shows text part) :=
  inferInstanceAs (Decidable (part.toList <:+: text.toList))

namespace Shows

variable {a p : String}

theorem refl (p : String) : Shows p p := List.infix_rfl

theorem append_left (h : Shows a p) (b : String) : Shows (a ++ b) p := by
  rw [Shows, String.toList_append]
  exact List.IsInfix.trans h (List.prefix_append _ _).isInfix

theorem append_right (b : String) (h : Shows a p) : Shows (b ++ a) p := by
  rw [Shows, String.toList_append]
  exact List.IsInfix.trans h (List.suffix_append _ _).isInfix

end Shows

/-! ## Parts of a report -/

namespace ServerError

/-- Every part of the report that is there stands in the text for the user. -/
structure ShowsAll (e : ServerError) : Prop where
  message : ∀ m, e.info.message = some m → Shows e.message m
  name : ∀ n, e.info.name = some n → Shows e.message n
  code : ∀ c, e.info.code = some c → Shows e.message (toString c)
  details : ∀ d, e.info.details = some d →
    d.collection.isSome ∨ d.index.isSome ∨ d.key.isSome → Shows e.message d.text
  statement : ∀ s, e.statement = some s → Shows e.message s

/-- The error without its name. -/
def unnamed (e : ServerError) : ServerError := { e with info := { e.info with name := none } }

variable (e : ServerError)

/-! ## What is always shown -/

theorem shows_of_heading {p : String} (h : Shows e.heading p) : Shows e.message p :=
  (((h.append_left _).append_left _).append_left _).append_left _

theorem shows_message {m : String} (h : e.info.message = some m) : Shows e.message m := by
  have hm : Shows (e.heading ++ ": " ++ e.info.message.getD "unknown error") m := by
    rw [h]
    exact (Shows.refl m).append_right _
  exact (hm.append_left _).append_left _

/-- The number stands in the heading, whether there is a name or not. -/
theorem shows_code {c : Int} (h : e.info.code = some c) : Shows e.message (toString c) := by
  apply e.shows_of_heading
  unfold heading
  rw [h]
  cases e.info.name with
  | none => exact (Shows.refl _).append_right _
  | some n => exact ((Shows.refl _).append_right _).append_left _

theorem shows_name {n : String} {c : Int} (hn : e.info.name = some n) (hc : e.info.code = some c) :
    Shows e.message n := by
  apply e.shows_of_heading
  unfold heading
  rw [hn, hc]
  exact ((((Shows.refl n).append_right _).append_left _).append_left _).append_left _

/-- Details are worth showing as soon as one of them is there. -/
theorem shows_details {d : ErrorDetails} (h : e.info.details = some d)
    (hd : d.collection.isSome ∨ d.index.isSome ∨ d.key.isSome) : Shows e.message d.text := by
  have hempty : d.isEmpty = false := by
    rw [ErrorDetails.isEmpty, Bool.and_eq_false_iff, Bool.and_eq_false_iff, or_assoc,
      Option.isNone_eq_false_iff, Option.isNone_eq_false_iff, Option.isNone_eq_false_iff]
    exact hd
  have hshown : e.info.shownDetails = some d := by
    rw [ErrorInfo.shownDetails, h, Option.filter_some, hempty]
    rfl
  unfold message
  rw [hshown]
  exact ((((Shows.refl _).append_right _).append_left _).append_right _).append_left _

theorem shows_statement {s : String} (h : e.statement = some s) : Shows e.message s := by
  unfold message
  rw [h]
  exact ((Shows.refl s).append_right _).append_right _

/-! ## What becomes of the name -/

/-- Without a number the text does not depend on the name. -/
theorem message_of_code_eq_none (h : e.info.code = none) : e.message = e.unnamed.message := by
  have hheading : e.heading = e.unnamed.heading := by
    unfold heading
    rw [h, show e.unnamed.info.code = none from h, show e.unnamed.info.name = none from rfl]
    cases e.info.name <;> rfl
  unfold message
  rw [hheading]
  rfl

/-- Only a name without a number can be missing from the text. -/
theorem showsAll_iff : e.ShowsAll ↔
    ∀ n, e.info.name = some n → e.info.code = none → Shows e.unnamed.message n := by
  constructor
  · intro h n hn hc
    rw [← e.message_of_code_eq_none hc]
    exact h.name n hn
  · intro h
    refine ⟨fun _ => e.shows_message, ?_, fun _ => e.shows_code, fun _ => e.shows_details,
      fun _ => e.shows_statement⟩
    intro n hn
    cases hc : e.info.code with
    | none =>
      rw [e.message_of_code_eq_none hc]
      exact h n hn hc
    | some c => exact e.shows_name hn hc

/-- Where every name comes with a number nothing is hidden. -/
theorem showsAll_of_numbered (h : ∀ n, e.info.name = some n → e.info.code ≠ none) : e.ShowsAll :=
  e.showsAll_iff.mpr fun n hn hc => absurd hc (h n hn)

end ServerError

/-! ## Servers -/

/-- A document server numbers what it names. -/
theorem DocumentFault.numbered (f : DocumentFault) {n : String} (h : f.report.name = some n) :
    f.report.code ≠ none := by
  have hwrite : ∀ (kind : String) (w : WriteFault) (d : Option ErrorDetails),
      (writeReport kind w d).code ≠ none := fun _ _ _ => Option.some_ne_none _
  match f with
  | .write w | .writeConcern w | .insertMany (w :: _) _ | .insertMany [] (some w) =>
    exact hwrite _ _ _
  | .command code _ _ => exact Option.some_ne_none code
  | .insertMany [] none | .authentication _ | .invalidArgument _ | .serverSelection _ | .other _ =>
    cases h

/-- So nothing that it reports is hidden. -/
theorem DocumentFault.showsAll (f : DocumentFault) :
    ServerError.ShowsAll ⟨.document, f.report, none⟩ :=
  ServerError.showsAll_of_numbered _ fun _ hn => f.numbered hn

/-- So does a relational server, as long as it gives a number with the state. -/
theorem RelationalFault.numbered (f : RelationalFault) {n : String} (h : f.report.name = some n)
    (hserver : ∀ state m, f ≠ .server none state m) : f.report.code ≠ none := by
  cases f with
  | server number state m =>
    cases number with
    | none => exact absurd rfl (hserver state m)
    | some number => exact Option.some_ne_none number
  | _ => cases h

/-- Then nothing is hidden that it reports, nor the statement. -/
theorem RelationalFault.showsAll (f : RelationalFault) (statement : Option String)
    (hserver : ∀ state m, f ≠ .server none state m) :
    ServerError.ShowsAll ⟨.relational, f.report, statement⟩ :=
  ServerError.showsAll_of_numbered _ fun _ hn => f.numbered hn hserver

/-- An error on the wire is a code word, a space, and what is said about it. -/
theorem Redis.firstFailure?_failureOf {code : List Char} (h : ' ' ∉ code) (detail : List Char) :
    (Redis.Resp.failureOf (code ++ ' ' :: detail)).firstFailure? =
      some (String.ofList code, some (String.ofList detail)) := by
  rw [Redis.Resp.failureOf, Text.cut_append h]
  rfl

/-- Of an error in a reply the user is shown what the server says behind the code word. -/
theorem Redis.message_accepted {r : Redis.Reply} {code detail : String}
    (h : r.firstFailure? = some (code, some detail)) :
    ∃ e, Redis.accepted (.ok r) = .error e ∧ e.message = "redis error: " ++ detail := by
  refine ⟨.ofKeyValue (.ofReply code (some detail)), ?_, ?_⟩
  · rw [Redis.accepted]
    simp only [h]
  · have htext : (KeyValueFault.ofReply code (some detail)).text = detail := by
      unfold KeyValueFault.ofReply
      split <;> rfl
    show ServerError.message ⟨.keyValue, KeyValueFault.report _, none⟩ = _
    rw [ServerError.message_of_code_eq_none _ rfl]
    show "redis" ++ " error" ++ ": " ++ (KeyValueFault.ofReply code (some detail)).text ++ "" ++ "" = _
    rw [htext, String.append_empty, String.append_empty]
    rfl

/-- **The text of an error hides nothing but a name without a number.**  It shows every part of the
    report that is there if and only if a name either stands next to a number or is repeated by the
    rest of the text.  Of an error reply of a key-value server the detail is always shown, and the
    code word exactly if it occurs in `redis error: ` with the detail behind it. -/
theorem message_shows_all_iff (e : ServerError) (r : Redis.Reply) (code detail : String) :
    (e.ShowsAll ↔ ∀ n, e.info.name = some n → e.info.code = none → Shows e.unnamed.message n) ∧
    (r.firstFailure? = some (code, some detail) →
      ∃ e, Redis.accepted (.ok r) = .error e ∧ Shows e.message detail ∧
        (Shows e.message code ↔ Shows ("redis error: " ++ detail) code)) := by
  refine ⟨e.showsAll_iff, fun h => ?_⟩
  obtain ⟨e, he, hmessage⟩ := Redis.message_accepted h
  refine ⟨e, he, ?_, ?_⟩
  · rw [hmessage]
    exact (Shows.refl detail).append_right _
  · rw [hmessage]

/-- A duplicate key with its place, and an error inside a list, whose detail repeats the code word. -/
theorem message_shows_all_iff_duplicate :
    ServerError.ShowsAll ⟨.document, DocumentFault.report
      (.write ⟨11000, "E11000 dup key: a", some [("ns", .str "shop.users")]⟩), none⟩ ∧
    ∃ e, Redis.accepted (.ok (.array [.int 1, .failure "ERR" (some "no ERR, no word")])) = .error e ∧
      Shows e.message "no ERR, no word" ∧ Shows e.message "ERR" := by
  obtain ⟨hdocument, hreply⟩ := message_shows_all_iff ⟨.document, DocumentFault.report
      (.write ⟨11000, "E11000 dup key: a", some [("ns", .str "shop.users")]⟩), none⟩
    (.array [.int 1, .failure "ERR" (some "no ERR, no word")]) "ERR" "no ERR, no word"
  obtain ⟨e, he, hdetail, hcode⟩ := hreply rfl
  refine ⟨hdocument.mpr fun n _ hc => ?_, e, he, hdetail, hcode.mpr (by decide +kernel)⟩
  cases hc

/-- The user is not told that it was the type of the key. -/
theorem code_word_hidden :
    ∃ e, Redis.accepted (.ok (Redis.Resp.failureOf "WRONGTYPE Operation against a key".toList)) =
        .error e ∧
      e.message = "redis error: Operation against a key" ∧ ¬ Shows e.message "WRONGTYPE" := by
  have hword : ' ' ∉ "WRONGTYPE".toList := by decide
  obtain ⟨e, he, hmessage⟩ := Redis.message_accepted
    (Redis.firstFailure?_failureOf hword "Operation against a key".toList)
  refine ⟨e, he, hmessage, ?_⟩
  rw [hmessage]
  decide +kernel

end Polyshell
