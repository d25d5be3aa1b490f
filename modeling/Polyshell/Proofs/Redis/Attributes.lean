/-
  Remarks about a reply, and its printed form.

  An attribute prints as the reply it is about.  In a list, or as the key of a map, the remarks
  leave no trace.  As a value of a map the reply is printed too, but in quotes, while the bare reply
  would be a number, a list or an object of its own.

  1. **Taking them off** — `stripped` is a reply without any remarks, and `Transparent` says that
     every attribute among the values of a map is about a reply that stands in quotes anyway
     (`IsQuoted`).

  2. **No trace** — remarks of a transparent reply do not change its printed form (`text_eq`).

  3. **A trace** — those of any other reply do, as long as no key of a map prints like another one.
     The two printed forms are compared from the left, part by part: `Runs` says that two texts go
     on alike only if they are alike themselves, and what that takes.  A quote against anything else
     ends the comparison.
-/
import Polyshell.Proofs.Redis.Entries

namespace Polyshell.Redis.Reply

open Polyshell.Json (prettyText prettyItems prettyMembers stringText)

/-! ## Taking them off -/

mutual

/-- The reply without its remarks: every attribute in it is the reply that it is about. -/
def stripped : Reply → Reply
  | .array items => .array (strippedItems items)
  | .set items => .set (strippedItems items)
  | .push kind items => .push kind (strippedItems items)
  | .map pairs => .map (strippedPairs pairs)
  | .attribute data _ => stripped data
  | v => v

def strippedItems : List Reply → List Reply
  | [] => []
  | v :: r => stripped v :: strippedItems r

def strippedPairs : List (Reply × Reply) → List (Reply × Reply)
  | [] => []
  | (k, v) :: r => (stripped k, stripped v) :: strippedPairs r

end

/-- Whether a reply inside a map stands in quotes, remarks apart. -/
def IsQuoted : Reply → Bool
  | .nil | .bool _ | .int _ | .array _ | .set _ | .map _ => false
  | .double x => !x.isFinite
  | .attribute data _ => IsQuoted data
  | .okay | .simple _ | .bulk _ | .verbatim _ _ | .push _ _ | .failure _ _ | .bigNumber _ => true

mutual

/-- No attribute among the values of a map is about a reply that stands there without quotes. -/
def Transparent : Reply → Prop
  | .array items => TransparentItems items
  | .set items => TransparentItems items
  | .push _ items => TransparentItems items
  | .map pairs => TransparentPairs pairs
  | .attribute data _ => Transparent data
  | _ => True

def TransparentItems : List Reply → Prop
  | [] => True
  | v :: r => v.Transparent ∧ TransparentItems r

/-- The same for a reply inside a map. -/
def TransparentInside : Reply → Prop
  | .array items => TransparentInsides items
  | .set items => TransparentInsides items
  | .push _ items => TransparentItems items
  | .map pairs => TransparentPairs pairs
  | .attribute data _ => data.IsQuoted = true ∧ Transparent data
  | _ => True

def TransparentInsides : List Reply → Prop
  | [] => True
  | v :: r => v.TransparentInside ∧ TransparentInsides r

def TransparentPairs : List (Reply × Reply) → Prop
  | [] => True
  | (k, v) :: r => (k.Transparent ∧ v.TransparentInside) ∧ TransparentPairs r

end

/-- A reply in quotes is its printed form in quotes, and it has no remarks if they are taken off. -/
theorem toJson_stripped : ∀ v : Reply, v.IsQuoted = true → v.stripped.toJson = .str v.stripped.text
  | .okay, _ | .simple _, _ | .bulk _, _ | .verbatim _ _, _ | .push _ _, _ | .failure _ _, _
  | .bigNumber _, _ => rfl
  | .double x, h => by
    have hx : ¬ x.isFinite = true := by simpa [IsQuoted] using h
    show doubleJson x = _
    rw [doubleJson, if_neg hx]
    rfl
  | .attribute data _, h => toJson_stripped data h

/-! ## No trace -/

mutual

theorem text_eq : ∀ v : Reply, v.Transparent → v.text = v.stripped.text
  | .nil, _ | .okay, _ | .int _, _ | .bool _, _ | .double _, _ | .simple _, _ | .bulk _, _
  | .verbatim _ _, _ | .failure _ _, _ | .bigNumber _, _ => rfl
  | .array items, h => by rw [text, stripped, text, itemTexts_eq items h]
  | .set items, h => by rw [text, stripped, text, itemTexts_eq items h]
  | .push _ items, h => by rw [text, stripped, text, itemTexts_eq items h]
  | .map pairs, h => by rw [text, stripped, text, pairMembers_eq pairs h]
  | .attribute data _, h => text_eq data h

theorem itemTexts_eq : ∀ items : List Reply, TransparentItems items →
    itemTexts items = itemTexts (strippedItems items)
  | [], _ => rfl
  | v :: r, h => by rw [itemTexts, strippedItems, itemTexts, text_eq v h.1, itemTexts_eq r h.2]

theorem toJson_eq : ∀ v : Reply, v.TransparentInside → v.toJson = v.stripped.toJson
  | .nil, _ | .okay, _ | .int _, _ | .bool _, _ | .double _, _ | .simple _, _ | .bulk _, _
  | .verbatim _ _, _ | .failure _ _, _ | .bigNumber _, _ => rfl
  | .array items, h => by rw [toJson, stripped, toJson, itemJsons_eq items h]
  | .set items, h => by rw [toJson, stripped, toJson, itemJsons_eq items h]
  | .push _ items, h => by rw [toJson, stripped, toJson, itemTexts_eq items h]
  | .map pairs, h => by rw [toJson, stripped, toJson, pairMembers_eq pairs h]
  | .attribute data _, h => by rw [toJson, stripped, toJson_stripped data h.1, text_eq data h.2]

theorem itemJsons_eq : ∀ items : List Reply, TransparentInsides items →
    itemJsons items = itemJsons (strippedItems items)
  | [], _ => rfl
  | v :: r, h => by rw [itemJsons, strippedItems, itemJsons, toJson_eq v h.1, itemJsons_eq r h.2]

theorem pairMembers_eq : ∀ pairs : List (Reply × Reply), TransparentPairs pairs →
    pairMembers pairs = pairMembers (strippedPairs pairs)
  | [], _ => rfl
  | (k, v) :: r, h => by
    rw [pairMembers, strippedPairs, pairMembers, text_eq k h.1.1, toJson_eq v h.1.2,
      pairMembers_eq r h.2]

end

/-! ## Texts compared from the left -/

/-- `Runs s s' p` — where two texts that begin with `s` and `s'` are equal, `p` holds, and so is
    what stands behind the two. -/
def Runs (s s' : List Char) (p : Prop) : Prop :=
  ∀ r r' : List Char, s ++ r = s' ++ r' → p ∧ r = r'

namespace Runs

variable {s s' t t' : List Char} {p q : Prop}

theorem same (s : List Char) : Runs s s True := fun _ _ h => ⟨trivial, List.append_cancel_left h⟩

theorem append (h : Runs s s' p) (h' : Runs t t' q) : Runs (s ++ t) (s' ++ t') (p ∧ q) := by
  intro r r' heq
  rw [List.append_assoc, List.append_assoc] at heq
  obtain ⟨hp, heq⟩ := h _ _ heq
  obtain ⟨hq, heq⟩ := h' _ _ heq
  exact ⟨⟨hp, hq⟩, heq⟩

theorem imp (h : Runs s s' p) (himp : p → q) : Runs s s' q := fun r r' heq =>
  ⟨himp (h r r' heq).1, (h r r' heq).2⟩

/-- The same text on the left. -/
theorem behind (l : List Char) (h : Runs s s' p) : Runs (l ++ s) (l ++ s') p :=
  ((same l).append h).imp And.right

/-- The same text on the right. -/
theorem before (h : Runs s s' p) (l : List Char) : Runs (s ++ l) (s' ++ l) p :=
  (h.append (same l)).imp And.left

/-- Printed strings. -/
theorem quoted {a b : String} (h : Runs a.toList b.toList p) :
    Runs (stringText a) (stringText b) p := by
  intro r r' heq
  obtain ⟨hab, hrest⟩ := Json.stringText_append_inj heq
  rw [hab] at h
  exact ⟨(h [] [] rfl).1, hrest⟩

/-- Texts that begin differently. -/
theorem of_head {c d : Char} (h : c ≠ d) : Runs (c :: s) (d :: s') p := fun _ _ heq =>
  absurd (List.cons.inj heq).1 h

end Runs

/-! ## A trace -/

/-- The items of a list from the `n`-th one on, as `numbered` writes them. -/
def numberedFrom (n : Nat) : List String → List Char
  | [] => []
  | [t] => (toString n ++ ") ").toList ++ t.toList
  | t :: u :: r =>
    (toString n ++ ") ").toList ++ (t.toList ++ '\n' :: numberedFrom (n + 1) (u :: r))

theorem numbered_eq {items : List String} (h : items ≠ []) :
    (numbered items).toList = numberedFrom 1 items := by
  have hfrom : ∀ (items : List String) (n : Nat), items ≠ [] →
      ['\n'].intercalate (((items.zipIdx n).map fun p => toString (p.2 + 1) ++ ") " ++ p.1).map
        String.toList) = numberedFrom (n + 1) items := by
    intro items
    induction items with
    | nil => exact fun _ h => absurd rfl h
    | cons t r ih =>
      intro n _
      cases r with
      | nil =>
        rw [List.zipIdx_singleton, List.map_singleton, List.map_singleton,
          List.intercalate_singleton, String.toList_append]
        rfl
      | cons u r =>
        have hrest := ih (n + 1) (List.cons_ne_nil u r)
        rw [List.zipIdx_cons, List.map_cons, List.map_cons] at hrest ⊢
        rw [List.zipIdx_cons, List.map_cons, List.map_cons, List.intercalate_cons_cons, hrest,
          numberedFrom, String.toList_append]
        simp only [List.append_assoc, List.singleton_append]
  rw [numbered, if_neg (by simpa using h), String.toList_intercalate]
  exact hfrom items 0 h

/-- A reply that does not stand in quotes begins with no quote. -/
theorem head_of_not_isQuoted (n : Nat) : ∀ v : Reply, v.IsQuoted = false →
    ∃ c r, prettyText n v.stripped.toJson = c :: r ∧ c ≠ '"'
  | .nil, _ => ⟨'n', _, rfl, by decide⟩
  | .bool true, _ => ⟨'t', _, rfl, by decide⟩
  | .bool false, _ => ⟨'f', _, rfl, by decide⟩
  | .int i, _ => by
    obtain ⟨c, r, hcons, hc⟩ := Json.head_intText i
    refine ⟨c, r, hcons, ?_⟩
    rintro rfl
    exact absurd hc (by decide)
  | .double x, h => by
    have hx : x.isFinite = true := by simpa [IsQuoted] using h
    obtain ⟨_, hnumeral⟩ := Json.numeral_inJson hx
    obtain ⟨c, r, hcons, hc⟩ := hnumeral.head
    refine ⟨c, r, ?_, ?_⟩
    · show prettyText n (doubleJson x) = _
      rw [doubleJson, if_pos hx]
      exact hcons
    · rintro rfl
      exact absurd hc (by decide)
  | .array [], _ => ⟨'[', _, rfl, by decide⟩
  | .array (_ :: _), _ => ⟨'[', _, rfl, by decide⟩
  | .set [], _ => ⟨'[', _, rfl, by decide⟩
  | .set (_ :: _), _ => ⟨'[', _, rfl, by decide⟩
  | .map pairs, _ => by
    show ∃ c r, prettyText n (.obj _) = c :: r ∧ _
    cases Members.ofList (pairMembers (strippedPairs pairs)) with
    | nil => exact ⟨'\x7b', _, rfl, by decide⟩
    | cons m r => exact ⟨'\x7b', _, rfl, by decide⟩
  | .attribute data _, h => head_of_not_isQuoted n data h

/-- A list goes on alike if its items do, -/
theorem runs_numbered {items : List Reply}
    (h : Runs (numberedFrom 1 (itemTexts items)) (numberedFrom 1 (itemTexts (strippedItems items)))
      (TransparentItems items)) :
    Runs (numbered (itemTexts items)).toList (numbered (itemTexts (strippedItems items))).toList
      (TransparentItems items) := by
  cases items with
  | nil => exact .same _
  | cons v r =>
    have htexts : itemTexts (v :: r) ≠ [] := nofun
    have hstripped : itemTexts (strippedItems (v :: r)) ≠ [] := nofun
    rw [numbered_eq htexts, numbered_eq hstripped]
    exact h

/-- an array of JSON if its elements do, -/
theorem runs_array {n : Nat} {items : List Reply}
    (h : Runs (prettyItems (n + 1) (itemJsons items))
      (prettyItems (n + 1) (itemJsons (strippedItems items))) (TransparentInsides items)) :
    Runs (prettyText n (.arr (itemJsons items)))
      (prettyText n (.arr (itemJsons (strippedItems items)))) (TransparentInsides items) := by
  cases items with
  | nil => exact .same _
  | cons v r => exact ((h.before _).before _).behind ['[']

/-- and an object if its members do. -/
theorem runs_object {n : Nat} {pairs : List (Reply × Reply)}
    (h : Runs (prettyMembers (n + 1) (pairMembers pairs))
      (prettyMembers (n + 1) (pairMembers (strippedPairs pairs))) (TransparentPairs pairs))
    (hkeys : (pairs.map fun p => p.1.text).Nodup)
    (hkeys' : ((strippedPairs pairs).map fun p => p.1.text).Nodup) :
    Runs (prettyText n (.obj (Members.ofList (pairMembers pairs))))
      (prettyText n (.obj (Members.ofList (pairMembers (strippedPairs pairs)))))
      (TransparentPairs pairs) := by
  rw [ofList_pairMembers hkeys, ofList_pairMembers hkeys']
  cases pairs with
  | nil => exact .same _
  | cons p r => exact ((h.before _).before _).behind ['\x7b']

mutual

theorem runs_text : ∀ v : Reply, v.KeysApart → v.stripped.KeysApart →
    Runs v.text.toList v.stripped.text.toList v.Transparent
  | .nil, _, _ | .okay, _, _ | .int _, _, _ | .bool _, _, _ | .double _, _, _ | .simple _, _, _
  | .bulk _, _, _ | .verbatim _ _, _, _ | .failure _ _, _, _ | .bigNumber _, _, _ => .same _
  | .array items, h, h' => runs_numbered (runs_itemTexts 1 items h h')
  | .set items, h, h' => runs_numbered (runs_itemTexts 1 items h h')
  | .push _ items, h, h' => runs_numbered (runs_itemTexts 1 items h h')
  | .map pairs, h, h' => by
    rw [text, stripped, text, Json.pretty, Json.pretty, String.toList_ofList, String.toList_ofList]
    exact runs_object (runs_pairMembers 1 pairs h.2 h'.2) h.1 h'.1
  | .attribute data _, h, h' => runs_text data h h'

theorem runs_itemTexts (n : Nat) : ∀ items : List Reply, ApartItems items →
    ApartItems (strippedItems items) →
      Runs (numberedFrom n (itemTexts items)) (numberedFrom n (itemTexts (strippedItems items)))
        (TransparentItems items)
  | [], _, _ => .same _
  | [v], h, h' => ((runs_text v h.1 h'.1).behind _).imp fun hv => ⟨hv, trivial⟩
  | v :: w :: r, h, h' =>
    ((runs_text v h.1 h'.1).append
      ((runs_itemTexts (n + 1) (w :: r) h.2 h'.2).behind ['\n'])).behind _

theorem runs_toJson (n : Nat) : ∀ v : Reply, v.KeysApart → v.stripped.KeysApart →
    Runs (prettyText n v.toJson) (prettyText n v.stripped.toJson) v.TransparentInside
  | .nil, _, _ | .okay, _, _ | .int _, _, _ | .bool _, _, _ | .double _, _, _ | .simple _, _, _
  | .bulk _, _, _ | .verbatim _ _, _, _ | .failure _ _, _, _ | .bigNumber _, _, _ => .same _
  | .array items, h, h' => runs_array (runs_itemJsons (n + 1) items h h')
  | .set items, h, h' => runs_array (runs_itemJsons (n + 1) items h h')
  | .push _ items, h, h' => (runs_numbered (runs_itemTexts 1 items h h')).quoted
  | .map pairs, h, h' => runs_object (runs_pairMembers (n + 1) pairs h.2 h'.2) h.1 h'.1
  | .attribute data _, h, h' => by
    rw [toJson, stripped, prettyText]
    cases hquoted : data.IsQuoted with
    | true =>
      rw [toJson_stripped data hquoted, prettyText]
      exact (runs_text data h h').quoted.imp fun hdata => ⟨hquoted, hdata⟩
    | false =>
      obtain ⟨c, r, hcons, hc⟩ := head_of_not_isQuoted n data hquoted
      rw [hcons]
      exact .of_head (Ne.symm hc)

theorem runs_itemJsons (n : Nat) : ∀ items : List Reply, ApartItems items →
    ApartItems (strippedItems items) →
      Runs (prettyItems n (itemJsons items)) (prettyItems n (itemJsons (strippedItems items)))
        (TransparentInsides items)
  | [], _, _ => .same _
  | [v], h, h' => ((runs_toJson n v h.1 h'.1).behind _).imp fun hv => ⟨hv, trivial⟩
  | v :: w :: r, h, h' =>
    ((runs_toJson n v h.1 h'.1).append
      ((runs_itemJsons n (w :: r) h.2 h'.2).behind [','])).behind _

theorem runs_pairMembers (n : Nat) : ∀ pairs : List (Reply × Reply), ApartPairs pairs →
    ApartPairs (strippedPairs pairs) →
      Runs (prettyMembers n (pairMembers pairs))
        (prettyMembers n (pairMembers (strippedPairs pairs))) (TransparentPairs pairs)
  | [], _, _ => .same _
  | [(k, v)], h, h' =>
    (((runs_text k h.1.1 h'.1.1).quoted.append
      ((runs_toJson n v h.1.2 h'.1.2).behind [':', ' '])).behind _).imp fun hp => ⟨hp, trivial⟩
  | (k, v) :: p :: r, h, h' =>
    (((runs_text k h.1.1 h'.1.1).quoted.append (((runs_toJson n v h.1.2 h'.1.2).append
      ((runs_pairMembers n (p :: r) h.2 h'.2).behind [','])).behind [':', ' '])).behind _).imp
        fun hp => ⟨⟨hp.1, hp.2.1⟩, hp.2.2⟩

end

/-- **What remarks change**: nothing in the printed form of a transparent reply; and something in
    that of any other one, as long as no two keys of one map print alike. -/
theorem text_stripped (v : Reply) :
    (v.Transparent → v.text = v.stripped.text) ∧
      (v.KeysApart → v.stripped.KeysApart → v.text = v.stripped.text → v.Transparent) := by
  refine ⟨text_eq v, fun h h' heq => ?_⟩
  have hwhole : v.text.toList ++ [] = v.stripped.text.toList ++ [] := by rw [heq]
  exact (runs_text v h h' [] [] hwhole).1

/-- Remarks about a key and about a text leave no trace, those about a number in a list do. -/
theorem text_stripped_key_and_list :
    (Reply.map [(.attribute (.bulk [0x6B]) [(.okay, .nil)], .attribute (.simple "a") [])]).text =
        (Reply.map [(.bulk [0x6B], .simple "a")]).text ∧
      (Reply.map [(.bulk [0x6B], .array [.attribute (.int 3) []])]).text ≠
        (Reply.map [(.bulk [0x6B], .array [.int 3])]).text := by
  refine ⟨(text_stripped _).1 ⟨⟨trivial, rfl, trivial⟩, trivial⟩, fun heq => ?_⟩
  have hapart : (Reply.map [(.bulk [0x6B], .array [.attribute (.int 3) []])]).KeysApart :=
    ⟨List.nodup_singleton _, ⟨trivial, trivial, trivial⟩, trivial⟩
  have htransparent := (text_stripped (.map [(.bulk [0x6B], .array [.attribute (.int 3) []])])).2
    hapart hapart heq
  exact Bool.false_ne_true htransparent.1.2.1.1

/-- The number in quotes, and the bare one. -/
theorem remark_about_number :
    (Reply.map [(.bulk [0x6B], .attribute (.int 3) [])]).text = "\x7b\n  \"k\": \"3\"\n\x7d" ∧
      (Reply.map [(.bulk [0x6B], .attribute (.int 3) [])]).stripped.text =
        "\x7b\n  \"k\": 3\n\x7d" :=
  ⟨by decide +kernel, by decide +kernel⟩

end Polyshell.Redis.Reply
