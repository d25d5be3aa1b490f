/-
  The reader takes the texts of the grammar, and no others.

  `Strict.accepted` is one direction: a text that writes a value is read as it.  Here is the other:
  whatever is read in front of a text is blanks and a text that writes the value
  (`strict_of_readValue`).  The induction is on the depth, and for the loop of a container on its
  fuel; what the loop does with an item is a hypothesis there, `Writes d item`, so that the loops
  are followed once and not once for each depth.
-/
import Polyshell.Proofs.Json.Consumed

namespace Polyshell.Json

/-! ## Blanks and names -/

/-- A text is the blanks that are skipped, and what is left. -/
theorem exists_spaces (s : List Char) : ∃ w, s = w ++ skipSpace s ∧ Spaces w :=
  ⟨s.takeWhile isSpace, List.takeWhile_append_dropWhile.symm, fun _ hc => List.mem_takeWhile_imp hc⟩

theorem Spaces.append {w w' : List Char} (hw : Spaces w) (hw' : Spaces w') : Spaces (w ++ w') :=
  fun c hc => (List.mem_append.mp hc).elim (hw c) (hw' c)

theorem readName_takes : ∀ (name s : List Char) {rest : List Char},
    readName name s = .ok rest → s = name ++ rest := by
  intro name
  induction name with
  | nil =>
    intro s rest h
    cases h
    rfl
  | cons a name ih =>
    intro s rest h
    cases s with
    | nil => cases h
    | cons c r =>
      rw [readName] at h
      by_cases hc : c = a
      · rw [if_pos hc] at h
        rw [hc, ih r h, List.cons_append]
      · rw [if_neg hc] at h
        cases h

/-! ## Containers -/

/-- Blanks may stand in front of the first item of a container. -/
theorem Strict.spaces_items {d : Nat} {vs : List Json} {w t : List Char} (hw : Spaces w)
    (h : Strict d (.items vs) t) : Strict d (.items vs) (w ++ t) := by
  cases h with
  | lastItem hw₀ h hw' =>
    rw [← List.append_assoc]
    exact .lastItem (hw.append hw₀) h hw'
  | item hw₀ h hw' hs =>
    rw [← List.append_assoc]
    exact .item (hw.append hw₀) h hw' hs

theorem Strict.spaces_members {d : Nat} {ms : List (String × Json)} {w t : List Char}
    (hw : Spaces w) (h : Strict d (.members ms) t) : Strict d (.members ms) (w ++ t) := by
  cases h with
  | lastMember hw₀ hk hw₁ hw₂ h hw' =>
    rw [← List.append_assoc]
    exact .lastMember (hw.append hw₀) hk hw₁ hw₂ h hw'
  | member hw₀ hk hw₁ hw₂ h hw' hs =>
    rw [← List.append_assoc]
    exact .member (hw.append hw₀) hk hw₁ hw₂ h hw' hs

/-- What `item` reads in front of a text is blanks, and a text that writes the value. -/
def Writes (d : Nat) (item : List Char → Except Fault (Json × List Char)) : Prop :=
  ∀ s v rest, item s = .ok (v, rest) →
    ∃ w t, s = w ++ (t ++ rest) ∧ Spaces w ∧ Strict d (.value v) t

section Loops

variable {d : Nat} {item : List Char → Except Fault (Json × List Char)} (hitem : Writes d item)
include hitem

theorem strict_of_readElements : ∀ (fuel : Nat) (s : List Char) {vs : List Json}
    {rest : List Char}, readElements item fuel s = .ok (vs, rest) →
      ∃ t, s = t ++ ']' :: rest ∧ Strict d (.items vs) t := by
  intro fuel
  induction fuel with
  | zero =>
    intro s vs rest h
    cases h
  | succ fuel ih =>
    intro s vs rest h
    rw [readElements] at h
    obtain ⟨⟨v, r⟩, hread, hbehind⟩ := exists_of_bind h
    obtain ⟨w, t, rfl, hw, ht⟩ := hitem s v r hread
    obtain ⟨w', hr, hw'⟩ := exists_spaces r
    simp only at hbehind
    split at hbehind
    · cases hbehind
    · next hclose =>
      cases hbehind
      rw [hclose] at hr
      refine ⟨w ++ (t ++ w'), ?_, .lastItem hw ht hw'⟩
      simp only [hr, List.append_assoc]
    · next r' hcomma =>
      rw [hcomma] at hr
      obtain ⟨w₁, hr', hw₁⟩ := exists_spaces r'
      split at hbehind
      · cases hbehind
      · cases hbehind
      · obtain ⟨⟨vs', rest'⟩, hmore, hdone⟩ := exists_of_bind hbehind
        cases hdone
        obtain ⟨ts, hts, hstrict⟩ := ih _ hmore
        rw [hts] at hr'
        refine ⟨w ++ (t ++ (w' ++ ',' :: (w₁ ++ ts))), ?_,
          .item hw ht hw' (hstrict.spaces_items hw₁)⟩
        simp only [hr, hr', List.append_assoc, List.cons_append]
    · cases hbehind

theorem strict_of_readMembers : ∀ (fuel : Nat) (s : List Char) {ms : List (String × Json)}
    {rest : List Char}, readMembers item fuel s = .ok (ms, rest) →
      ∃ t, s = t ++ '\x7d' :: rest ∧ Strict d (.members ms) t := by
  intro fuel
  induction fuel with
  | zero =>
    intro s ms rest h
    cases h
  | succ fuel ih =>
    intro s ms rest h
    unfold readMembers at h
    split at h
    · next k =>
      obtain ⟨⟨key, r⟩, hkey, hbehind⟩ := exists_of_bind h
      obtain ⟨tk, rfl, hbody⟩ := readString_takes _ k hkey
      obtain ⟨w₁, hr, hw₁⟩ := exists_spaces r
      simp only at hbehind
      split at hbehind
      · cases hbehind
      · next r₁ hcolon =>
        rw [hcolon] at hr
        obtain ⟨⟨v, r₂⟩, hread, hmember⟩ := exists_of_bind hbehind
        obtain ⟨w₂, t, rfl, hw₂, ht⟩ := hitem r₁ v r₂ hread
        obtain ⟨w', hr₂, hw'⟩ := exists_spaces r₂
        split at hmember
        · cases hmember
        · next hclose =>
          cases hmember
          rw [hclose] at hr₂
          refine ⟨'"' :: (tk ++ '"' :: (w₁ ++ ':' :: (w₂ ++ (t ++ w')))), ?_,
            .lastMember (w := []) Spaces.nil hbody hw₁ hw₂ ht hw'⟩
          simp only [hr, hr₂, List.append_assoc, List.cons_append]
        · next r₃ hcomma =>
          rw [hcomma] at hr₂
          obtain ⟨w₃, hr₃, hw₃⟩ := exists_spaces r₃
          split at hmember
          · cases hmember
          · cases hmember
          · obtain ⟨⟨ms', rest'⟩, hmore, hdone⟩ := exists_of_bind hmember
            cases hdone
            obtain ⟨ts, hts, hstrict⟩ := ih _ hmore
            rw [hts] at hr₃
            refine ⟨'"' :: (tk ++ '"' :: (w₁ ++ ':' :: (w₂ ++ (t ++ (w' ++ ',' :: (w₃ ++ ts)))))),
              ?_, .member (w := []) Spaces.nil hbody hw₁ hw₂ ht hw' (hstrict.spaces_members hw₃)⟩
            simp only [hr, hr₂, hr₃, List.append_assoc, List.cons_append]
        · cases hmember
      · cases hbehind
    · cases h

end Loops

/-! ## Values -/

/-- What is read as a name of JSON is that name. -/
theorem name_of_read {name r rest : List Char} {v v' : Json}
    (h : (do return (v, ← readName name r)) = Except.ok (v', rest)) :
    r = name ++ rest ∧ v' = v := by
  obtain ⟨r', hname, hdone⟩ := exists_of_bind h
  cases hdone
  exact ⟨readName_takes name r hname, rfl⟩

/-- The value that follows, if the containers inside are read as they are written. -/
theorem strict_of_solid {d : Nat} (hinside : ∀ e, d = e + 1 → Writes e (readValue e))
    {s rest : List Char} {v : Json} (hs : skipSpace s = s) (h : readValue d s = .ok (v, rest)) :
    ∃ t, s = t ++ rest ∧ Strict d (.value v) t := by
  have hnumber : ∀ c r, s = c :: r → c = '-' ∨ Decimal.isDigit c = true →
      ∃ t, s = t ++ rest ∧ Strict d (.value v) t := by
    rintro c r rfl hc
    obtain ⟨n, rfl, hn⟩ := num_of_readValue hc h
    obtain ⟨t, hs, ht⟩ := readSigned_takes hn
    exact ⟨t, hs, .num ht⟩
  have hread := h
  rw [readValue.eq_1, hs] at h
  split at h
  · cases h
  · obtain ⟨rfl, rfl⟩ := name_of_read h
    exact ⟨_, rfl, .null⟩
  · obtain ⟨rfl, rfl⟩ := name_of_read h
    exact ⟨_, rfl, .isTrue⟩
  · obtain ⟨rfl, rfl⟩ := name_of_read h
    exact ⟨_, rfl, .isFalse⟩
  · exact hnumber '-' _ rfl (Or.inl rfl)
  · obtain ⟨cs, t, rfl, rfl, hbody⟩ := str_of_readValue hread
    exact ⟨'"' :: (t ++ ['"']), by simp, .str hbody⟩
  · next r =>
    split at h
    · cases h
    · next e =>
      obtain ⟨w, hr, hw⟩ := exists_spaces r
      split at h
      · cases h
      · next hclose =>
        cases h
        rw [hclose] at hr
        exact ⟨'[' :: (w ++ [']']), by simp [hr], .noItems hw⟩
      · obtain ⟨⟨vs, rest'⟩, helements, hdone⟩ := exists_of_bind h
        cases hdone
        obtain ⟨t, ht, hstrict⟩ := strict_of_readElements (hinside e rfl) _ _ helements
        rw [ht] at hr
        exact ⟨'[' :: ((w ++ t) ++ [']']), by simp [hr], .arr (hstrict.spaces_items hw)⟩
  · next r =>
    split at h
    · cases h
    · next e =>
      obtain ⟨w, hr, hw⟩ := exists_spaces r
      split at h
      · cases h
      · next hclose =>
        cases h
        rw [hclose] at hr
        exact ⟨'\x7b' :: (w ++ ['\x7d']), by simp [hr], .noMembers hw⟩
      · obtain ⟨⟨ms, rest'⟩, hmembers, hdone⟩ := exists_of_bind h
        cases hdone
        obtain ⟨t, ht, hstrict⟩ := strict_of_readMembers (hinside e rfl) _ _ hmembers
        rw [ht] at hr
        exact ⟨'\x7b' :: ((w ++ t) ++ ['\x7d']), by simp [hr], .obj (hstrict.spaces_members hw)⟩
  · next c r _ _ _ _ _ _ _ =>
    split at h
    · next hd => exact hnumber c r rfl (Or.inr hd)
    · cases h

/-- What the reader reads in front of a text is blanks, and a text that writes the value. -/
theorem strict_of_readValue : ∀ d : Nat, Writes d (readValue d) := by
  have hstep : ∀ d, (∀ e, d = e + 1 → Writes e (readValue e)) → Writes d (readValue d) := by
    intro d hinside s v rest h
    obtain ⟨w, hs, hw⟩ := exists_spaces s
    rw [← readValue_skipSpace d (skipSpace_skipSpace s)] at h
    obtain ⟨t, ht, hstrict⟩ := strict_of_solid hinside (skipSpace_skipSpace s) h
    exact ⟨w, t, by rw [← ht, ← hs], hw, hstrict⟩
  intro d
  induction d with
  | zero => exact hstep 0 fun e he => nomatch he
  | succ d ih =>
    refine hstep (d + 1) fun e he => ?_
    rw [← Nat.succ.inj he]
    exact ih

/-- **The reader takes exactly the texts of the grammar**, with blanks around them. -/
theorem readWithin_eq_ok_iff {d : Nat} {text : List Char} {v : Json} :
    readWithin d text = .ok v ↔
      ∃ w t w', text = w ++ (t ++ w') ∧ Spaces w ∧ Strict d (.value v) t ∧ Spaces w' := by
  constructor
  · intro h
    rw [readWithin] at h
    obtain ⟨⟨v', rest⟩, hread, hbehind⟩ := exists_of_bind h
    obtain ⟨w, t, rfl, hw, ht⟩ := strict_of_readValue d text v' rest hread
    simp only at hbehind
    split at hbehind
    · next hnone =>
      cases hbehind
      exact ⟨w, t, rest, rfl, hw, ht, List.dropWhile_eq_nil_iff.mp hnone⟩
    · cases hbehind
  · rintro ⟨w, t, w', rfl, hw, ht, hw'⟩
    have hread := ht.accepted w' (by simpa using EndsNumber.of_spaces hw' EndsNumber.nil)
    have hblank : skipSpace w' = [] := List.dropWhile_eq_nil_iff.mpr hw'
    rw [readWithin, readValue_spaces hw ht.head, hread]
    simp only [bind, Except.bind, hblank]
    rfl

end Polyshell.Json
