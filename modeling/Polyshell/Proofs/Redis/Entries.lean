/-
  The pairs of a map that its printed form shows.

  A map prints as a JSON object whose keys are the printed keys of its pairs, and an object has one
  member a key.  So what decides is not whether the keys differ, but whether they print differently:
  the number 1, the text `1` and the truth are three keys and one member.

  1. **One object** — the members that were put into an object one after another are all there
     exactly if their keys differ (`Members.ofList_eq_iff`).

  2. **Nothing lost** — `entire` prints like `text` and keeps every pair; where the keys print
     differently the two agree (`text_eq_entire`).

  3. **Something lost** — every member writes a colon, the texts in a reply keep theirs, and nothing
     else that is printed has one.  A member that takes the place of another one takes a colon away
     (`memberColons_ofList`), and nothing brings it back (`Fewer`).
-/
import Polyshell.Proofs.Decimal.Digits
import Polyshell.Proofs.Json.Reread
import Polyshell.Redis.Reply

namespace Polyshell

/-! ## One object -/

namespace Members

variable {α : Type}

/-- The keys of an object differ, however it was filled. -/
theorem nodup_ofList (ms : List (String × α)) : ((ofList ms).map Prod.fst).Nodup := by
  have hfold : ∀ (ms acc : List (String × α)), (acc.map Prod.fst).Nodup →
      ((ms.foldl (fun acc m => put m.1 m.2 acc) acc).map Prod.fst).Nodup := by
    intro ms
    induction ms with
    | nil => exact fun _ h => h
    | cons m ms ih =>
      intro acc h
      rw [List.foldl_cons]
      refine ih _ ?_
      by_cases hm : m.1 ∈ acc.map Prod.fst
      · rwa [put_of_mem _ _ _ hm]
      · rw [put_of_not_mem _ _ _ hm, List.map_append]
        exact h.append (List.nodup_singleton _) (List.disjoint_singleton.mpr hm)
  exact hfold ms [] List.nodup_nil

/-- An object has the members that were put into it exactly if their keys differ. -/
theorem ofList_eq_iff {ms : List (String × α)} : ofList ms = ms ↔ (ms.map Prod.fst).Nodup :=
  ⟨fun h => h ▸ nodup_ofList ms, ofList_of_nodup ms⟩

end Members

/-! ## Colons -/

/-- How many colons a text has. -/
def colons (s : String) : Nat := s.toList.count ':'

theorem colons_append (s t : String) : colons (s ++ t) = colons s + colons t := by
  rw [colons, String.toList_append, List.count_append]
  rfl

namespace Json

/-- An escape keeps a colon and writes none. -/
theorem count_escapeChar (c : Char) : (escapeChar c).count ':' = [c].count ':' := by
  have hhex : ∀ n < 32, hexDigit (n / 16) ≠ ':' ∧ hexDigit (n % 16) ≠ ':' := by decide
  unfold escapeChar
  split
  case h_8 =>
    split
    · next hcontrol =>
      have hcolon : c ≠ ':' := by rintro rfl; exact absurd hcontrol (by decide)
      rw [List.count_eq_zero.mpr, List.count_eq_zero.mpr]
      · simpa using hcolon.symm
      · simpa using ⟨(hhex _ hcontrol).1.symm, (hhex _ hcontrol).2.symm⟩
    · rfl
  all_goals decide

theorem count_stringText (s : String) : (stringText s).count ':' = colons s := by
  have hescaped : ∀ l : List Char, (l.flatMap escapeChar).count ':' = l.count ':' := by
    intro l
    induction l with
    | nil => rfl
    | cons c l ih =>
      rw [List.flatMap_cons, List.count_append, ih, count_escapeChar, ← List.count_append,
        List.singleton_append]
  rw [stringText, List.count_cons_of_ne (by decide), List.count_append, hescaped]
  rfl

theorem count_indent (n : Nat) : (indent n).count ':' = 0 := by
  rw [indent, List.count_cons_of_ne (by decide), List.count_replicate]
  rfl

mutual

/-- How many colons the spread text of a value has: one a member, and those in its texts. -/
def colons : Json → Nat
  | .null => 0
  | .bool _ => 0
  | .num n => n.text.count ':'
  | .str s => Polyshell.colons s
  | .arr items => itemColons items
  | .obj members => memberColons members

def itemColons : List Json → Nat
  | [] => 0
  | v :: r => v.colons + itemColons r

def memberColons : List (String × Json) → Nat
  | [] => 0
  | (k, v) :: r => Polyshell.colons k + 1 + v.colons + memberColons r

end

mutual

theorem count_prettyText : ∀ (n : Nat) (v : Json), (prettyText n v).count ':' = v.colons
  | _, .null => by simp only [prettyText, colons]; decide
  | _, .bool true => by simp only [prettyText, colons]; decide
  | _, .bool false => by simp only [prettyText, colons]; decide
  | _, .num _ => rfl
  | _, .str s => by simp only [prettyText, colons]; exact count_stringText s
  | _, .arr [] => rfl
  | n, .arr (v :: r) => by
    simp only [prettyText, colons, List.count_cons, List.count_append, count_indent,
      count_prettyItems (n + 1) (v :: r)]
    rfl
  | _, .obj [] => rfl
  | n, .obj (m :: r) => by
    simp only [prettyText, colons, List.count_cons, List.count_append, count_indent,
      count_prettyMembers (n + 1) (m :: r)]
    rfl

theorem count_prettyItems : ∀ (n : Nat) (vs : List Json),
    (prettyItems n vs).count ':' = itemColons vs
  | _, [] => rfl
  | n, [v] => by
    simp only [prettyItems, itemColons, List.count_append, count_indent, count_prettyText n v]
    omega
  | n, v :: w :: r => by
    rw [prettyItems, List.count_append, List.count_append, List.count_cons_of_ne (by decide),
      count_indent, count_prettyText n v, count_prettyItems n (w :: r), Nat.zero_add]
    rfl

theorem count_prettyMembers : ∀ (n : Nat) (ms : List (String × Json)),
    (prettyMembers n ms).count ':' = memberColons ms
  | _, [] => rfl
  | n, [(k, v)] => by
    simp only [prettyMembers, memberColons, List.count_append, count_indent, count_stringText,
      List.count_cons_self, List.count_cons_of_ne (show ' ' ≠ ':' by decide), count_prettyText n v]
    omega
  | n, (k, v) :: m :: r => by
    rw [prettyMembers, List.count_append, List.count_append, List.count_cons_self,
      List.count_cons_of_ne (by decide), List.count_append, List.count_cons_of_ne (by decide),
      count_indent, count_stringText, count_prettyText n v, count_prettyMembers n (m :: r),
      show memberColons ((k, v) :: m :: r) =
        Polyshell.colons k + 1 + v.colons + memberColons (m :: r) from rfl]
    omega

end

theorem colons_pretty (v : Json) : Polyshell.colons v.pretty = v.colons := by
  rw [Polyshell.colons, pretty, String.toList_ofList, count_prettyText]

/-! ## What a put member costs -/

theorem memberColons_append (ms ms' : List (String × Json)) :
    memberColons (ms ++ ms') = memberColons ms + memberColons ms' := by
  induction ms with
  | nil => exact (Nat.zero_add _).symm
  | cons m ms ih =>
    rw [List.cons_append, memberColons, memberColons, ih]
    omega

/-- A member under a key that is there brings no colons but those of its value. -/
theorem memberColons_put_lt {m : String × Json} {ms : List (String × Json)}
    (h : m.1 ∈ ms.map Prod.fst) :
    memberColons (Members.put m.1 m.2 ms) < memberColons ms + memberColons [m] := by
  obtain ⟨key, value⟩ := m
  induction ms with
  | nil => cases h
  | cons m r ih =>
    obtain ⟨k, v⟩ := m
    rw [Members.put_cons]
    split
    · simp only [memberColons]
      omega
    · next hk =>
      rw [List.map_cons, List.mem_cons] at h
      have hlt := ih (h.resolve_left (Ne.symm hk))
      simp only [memberColons] at hlt ⊢
      omega

end Json

/-! ## Numbers that become fewer -/

/-- `Fewer n m p` — `n` is at most `m`, and `p` holds where it is no less. -/
def Fewer (n m : Nat) (p : Prop) : Prop := n ≤ m ∧ (m ≤ n → p)

namespace Fewer

theorem same (n : Nat) : Fewer n n True := ⟨Nat.le_refl n, fun _ => trivial⟩

theorem add {n m n' m' : Nat} {p p' : Prop} (h : Fewer n m p) (h' : Fewer n' m' p') :
    Fewer (n + n') (m + m') (p ∧ p') := by
  obtain ⟨hle, hp⟩ := h
  obtain ⟨hle', hp'⟩ := h'
  exact ⟨Nat.add_le_add hle hle', fun hge => ⟨hp (by omega), hp' (by omega)⟩⟩

theorem trans {n m k : Nat} {p p' : Prop} (h : Fewer n m p) (h' : Fewer m k p') :
    Fewer n k (p ∧ p') :=
  ⟨Nat.le_trans h.1 h'.1, fun hge => ⟨h.2 (Nat.le_trans h'.1 hge), h'.2 (Nat.le_trans hge h.1)⟩⟩

end Fewer

/-- An object has the colons of the members that were put into it, unless two keys are one. -/
theorem Json.memberColons_ofList (ms : List (String × Json)) :
    Fewer (memberColons (Members.ofList ms)) (memberColons ms) (ms.map Prod.fst).Nodup := by
  have hfold : ∀ (ms acc : List (String × Json)), (acc.map Prod.fst).Nodup →
      Fewer (memberColons (ms.foldl (fun acc m => Members.put m.1 m.2 acc) acc))
        (memberColons (acc ++ ms)) ((acc ++ ms).map Prod.fst).Nodup := by
    intro ms
    induction ms with
    | nil =>
      intro acc h
      rw [List.foldl_nil, List.append_nil]
      exact ⟨Nat.le_refl _, fun _ => h⟩
    | cons m ms ih =>
      intro acc h
      rw [List.foldl_cons, ← List.singleton_append, ← List.append_assoc]
      by_cases hm : m.1 ∈ acc.map Prod.fst
      · have hput : ((Members.put m.1 m.2 acc).map Prod.fst).Nodup := by
          rwa [Members.put_of_mem _ _ _ hm]
        have hle := (ih _ hput).1
        have hlt := memberColons_put_lt hm
        rw [memberColons_append] at hle
        rw [memberColons_append, memberColons_append]
        exact ⟨by omega, fun hge => absurd hge (by omega)⟩
      · have hfresh : ((acc ++ [m]).map Prod.fst).Nodup := by
          rw [List.map_append]
          exact h.append (List.nodup_singleton _) (List.disjoint_singleton.mpr hm)
        rw [Members.put_of_not_mem _ _ _ hm]
        exact ih _ hfresh
  exact hfold ms [] List.nodup_nil

namespace Redis.Reply

/-! ## A list -/

theorem count_intercalate {sep : List Char} (hsep : ':' ∉ sep) (ls : List (List Char)) :
    (sep.intercalate ls).count ':' = (ls.map (List.count ':')).sum := by
  induction ls with
  | nil => rfl
  | cons l r ih =>
    cases r with
    | nil => rw [List.intercalate_singleton]; exact (Nat.add_zero _).symm
    | cons l' r =>
      rw [List.intercalate_cons_cons, List.count_append, List.count_append, ih,
        List.count_eq_zero.mpr hsep]
      rfl

/-- A list has the colons of its items: there is none in a number. -/
theorem colons_numbered (items : List String) :
    colons (numbered items) = (items.map colons).sum := by
  have hnumber : ∀ n : Nat, colons (toString n) = 0 := by
    intro n
    rw [colons, List.count_eq_zero]
    intro hmem
    rw [show toString n = n.repr from rfl, Nat.toList_repr] at hmem
    exact absurd (Nat.isDigit_of_mem_toDigits (by decide) (by decide) hmem) (by decide)
  rw [numbered]
  split
  · next hempty =>
    rw [List.isEmpty_iff.mp hempty]
    decide
  · have hitem : ∀ p : String × Nat, colons (toString (p.2 + 1) ++ ") " ++ p.1) = colons p.1 := by
      intro p
      rw [colons_append, colons_append, hnumber, show colons ") " = 0 by decide, Nat.add_zero,
        Nat.zero_add]
    have hitems : items.map colons = items.zipIdx.map fun p => colons p.1 := by
      calc items.map colons = (items.zipIdx.map Prod.fst).map colons := by
            rw [List.zipIdx_map_fst]
        _ = items.zipIdx.map fun p => colons p.1 := List.map_map
    rw [colons, String.toList_intercalate, count_intercalate (by decide), List.map_map,
      List.map_map, hitems]
    exact congrArg List.sum (List.map_congr_left fun p _ => hitem p)

/-! ## The form that loses nothing -/

mutual

/-- The printed form with a member for every pair of every map. -/
def entire : Reply → String
  | .array items => numbered (entireItems items)
  | .set items => numbered (entireItems items)
  | .push _ items => numbered (entireItems items)
  | .map pairs => (Json.obj (entirePairs pairs)).pretty
  | .attribute data _ => entire data
  | v => v.text

def entireItems : List Reply → List String
  | [] => []
  | v :: r => entire v :: entireItems r

/-- The same for a reply inside a map. -/
def entireJson : Reply → Json
  | .array items => .arr (entireJsons items)
  | .set items => .arr (entireJsons items)
  | .map pairs => .obj (entirePairs pairs)
  | .push _ items => .str (numbered (entireItems items))
  | .attribute data _ => .str (entire data)
  | v => v.toJson

def entireJsons : List Reply → List Json
  | [] => []
  | v :: r => entireJson v :: entireJsons r

/-- One member for each pair, in order. -/
def entirePairs : List (Reply × Reply) → List (String × Json)
  | [] => []
  | (k, v) :: r => (entire k, entireJson v) :: entirePairs r

end

mutual

/-- No two keys of one map print alike, in any map that is printed. -/
def KeysApart : Reply → Prop
  | .array items => ApartItems items
  | .set items => ApartItems items
  | .push _ items => ApartItems items
  | .map pairs => (pairs.map fun p => p.1.text).Nodup ∧ ApartPairs pairs
  | .attribute data _ => KeysApart data
  | _ => True

def ApartItems : List Reply → Prop
  | [] => True
  | v :: r => v.KeysApart ∧ ApartItems r

def ApartPairs : List (Reply × Reply) → Prop
  | [] => True
  | (k, v) :: r => (k.KeysApart ∧ v.KeysApart) ∧ ApartPairs r

end

/-- The keys of the members are the printed keys. -/
theorem keys_pairMembers (pairs : List (Reply × Reply)) :
    (pairMembers pairs).map Prod.fst = pairs.map fun p => p.1.text := by
  induction pairs with
  | nil => rfl
  | cons p r ih => rw [pairMembers, List.map_cons, List.map_cons, ih]

/-- The object of a map is filled with its pairs. -/
theorem ofList_pairMembers {pairs : List (Reply × Reply)}
    (h : (pairs.map fun p => p.1.text).Nodup) :
    Members.ofList (pairMembers pairs) = pairMembers pairs :=
  Members.ofList_eq_iff.mpr (by rwa [keys_pairMembers])

/-! ## Nothing lost -/

mutual

theorem text_eq_entire : ∀ v : Reply, v.KeysApart → v.text = v.entire
  | .nil, _ | .okay, _ | .int _, _ | .bool _, _ | .double _, _ | .simple _, _ | .bulk _, _
  | .verbatim _ _, _ | .failure _ _, _ | .bigNumber _, _ => rfl
  | .array items, h => by rw [text, entire, itemTexts_eq_entire items h]
  | .set items, h => by rw [text, entire, itemTexts_eq_entire items h]
  | .push _ items, h => by rw [text, entire, itemTexts_eq_entire items h]
  | .map pairs, h => by
    rw [text, entire, ofList_pairMembers h.1, pairMembers_eq_entire pairs h.2]
  | .attribute data _, h => text_eq_entire data h

theorem itemTexts_eq_entire : ∀ items : List Reply, ApartItems items →
    itemTexts items = entireItems items
  | [], _ => rfl
  | v :: r, h => by rw [itemTexts, entireItems, text_eq_entire v h.1, itemTexts_eq_entire r h.2]

theorem toJson_eq_entire : ∀ v : Reply, v.KeysApart → v.toJson = v.entireJson
  | .nil, _ | .okay, _ | .int _, _ | .bool _, _ | .double _, _ | .simple _, _ | .bulk _, _
  | .verbatim _ _, _ | .failure _ _, _ | .bigNumber _, _ => rfl
  | .array items, h => by rw [toJson, entireJson, itemJsons_eq_entire items h]
  | .set items, h => by rw [toJson, entireJson, itemJsons_eq_entire items h]
  | .push _ items, h => by rw [toJson, entireJson, itemTexts_eq_entire items h]
  | .map pairs, h => by
    rw [toJson, entireJson, ofList_pairMembers h.1, pairMembers_eq_entire pairs h.2]
  | .attribute data _, h => by rw [toJson, entireJson, text_eq_entire data h]

theorem itemJsons_eq_entire : ∀ items : List Reply, ApartItems items →
    itemJsons items = entireJsons items
  | [], _ => rfl
  | v :: r, h => by rw [itemJsons, entireJsons, toJson_eq_entire v h.1, itemJsons_eq_entire r h.2]

theorem pairMembers_eq_entire : ∀ pairs : List (Reply × Reply), ApartPairs pairs →
    pairMembers pairs = entirePairs pairs
  | [], _ => rfl
  | (k, v) :: r, h => by
    rw [pairMembers, entirePairs, text_eq_entire k h.1.1, toJson_eq_entire v h.1.2,
      pairMembers_eq_entire r h.2]

end

/-! ## Something lost -/

mutual

theorem colons_text : ∀ v : Reply, Fewer (colons v.text) (colons v.entire) v.KeysApart
  | .nil | .okay | .int _ | .bool _ | .double _ | .simple _ | .bulk _ | .verbatim _ _
  | .failure _ _ | .bigNumber _ => .same _
  | .array items => by rw [text, entire]; exact colons_itemTexts items
  | .set items => by rw [text, entire]; exact colons_itemTexts items
  | .push _ items => by rw [text, entire]; exact colons_itemTexts items
  | .map pairs => by
    rw [text, entire, Json.colons_pretty, Json.colons_pretty]
    exact colons_pairs pairs
  | .attribute data _ => colons_text data

theorem colons_itemTexts : ∀ items : List Reply,
    Fewer (colons (numbered (itemTexts items))) (colons (numbered (entireItems items)))
      (ApartItems items)
  | [] => .same _
  | v :: r => by
    have hrest := colons_itemTexts r
    rw [colons_numbered, colons_numbered] at hrest ⊢
    exact (colons_text v).add hrest

theorem colons_toJson : ∀ v : Reply, Fewer v.toJson.colons v.entireJson.colons v.KeysApart
  | .nil | .okay | .int _ | .bool _ | .double _ | .simple _ | .bulk _ | .verbatim _ _
  | .failure _ _ | .bigNumber _ => .same _
  | .array items => colons_itemJsons items
  | .set items => colons_itemJsons items
  | .push _ items => colons_itemTexts items
  | .map pairs => colons_pairs pairs
  | .attribute data _ => colons_text data

theorem colons_itemJsons : ∀ items : List Reply,
    Fewer (Json.itemColons (itemJsons items)) (Json.itemColons (entireJsons items))
      (ApartItems items)
  | [] => .same _
  | v :: r => (colons_toJson v).add (colons_itemJsons r)

/-- The pairs of a map, those inside its keys and values included. -/
theorem colons_pairs (pairs : List (Reply × Reply)) :
    Fewer (Json.memberColons (Members.ofList (pairMembers pairs)))
      (Json.memberColons (entirePairs pairs)) (Reply.map pairs).KeysApart := by
  have h := (Json.memberColons_ofList (pairMembers pairs)).trans (colons_pairMembers pairs)
  rwa [keys_pairMembers] at h

theorem colons_pairMembers : ∀ pairs : List (Reply × Reply),
    Fewer (Json.memberColons (pairMembers pairs)) (Json.memberColons (entirePairs pairs))
      (ApartPairs pairs)
  | [] => .same _
  | (k, v) :: r => by
    have h := ((colons_text k).add (colons_toJson v)).add (colons_pairMembers r)
    simp only [pairMembers, entirePairs, Json.memberColons]
    exact ⟨by have := h.1; omega, fun hge => h.2 (by omega)⟩

end

/-- **What a map shows of its pairs**: a reply prints a member for every pair of every map in it, in
    order, exactly if no two keys of one map print alike. -/
theorem prints_every_pair_iff (v : Reply) : v.text = v.entire ↔ v.KeysApart :=
  ⟨fun h => (colons_text v).2 (Nat.le_of_eq (congrArg colons h.symm)), text_eq_entire v⟩

/-- Two keys that differ and one member: it has the place of the first and the value of the last. -/
theorem one_member_of_two_keys :
    Reply.int 1 ≠ Reply.bulk [0x31] ∧
      text (.map [(.int 1, .int 5), (.bulk [0x31], .int 6)]) = "\x7b\n  \"1\": 6\n\x7d" ∧
      entire (.map [(.int 1, .int 5), (.bulk [0x31], .int 6)]) =
        "\x7b\n  \"1\": 5,\n  \"1\": 6\n\x7d" :=
  ⟨nofun, by decide +kernel, by decide +kernel⟩

end Redis.Reply
end Polyshell
