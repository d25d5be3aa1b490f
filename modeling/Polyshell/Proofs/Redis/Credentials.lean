/-
  The credentials in an address.

  1. **Bytes** — different texts have different bytes (`encode_injective`).

  2. **Escaped text** — an escaped text holds none of the characters that divide an address
     (`ne_of_mem_encode`), whatever text it was.

  3. **Reading** — `read?` takes an address apart: the login is what is in front of the first
     at-sign, and divided at its first colon.  It finds what the address was made from
     (`read?_connectionAddress`).

  4. **Different keys** — so the address tells keys apart that differ in their credentials, their
     host or their port (`connectionAddress_faithful`).
-/
import Polyshell.Proofs.Decimal.Digits
import Polyshell.Redis.Address
import Polyshell.Resolver

namespace Polyshell.Redis

open Polyshell.Text

/-! ## Bytes -/

theorem toList_loop (bytes : ByteArray) (i : Nat) (seen : List UInt8) :
    ByteArray.toList.loop bytes i seen = seen.reverse ++ bytes.data.toList.drop i := by
  fun_induction ByteArray.toList.loop bytes i seen with
  | case1 i seen hi ih =>
    have hlength : i < bytes.data.toList.length := by simpa using hi
    have hget : bytes.get! i = bytes.data.toList[i] := getElem!_pos bytes.data i hi
    rw [ih, List.drop_eq_getElem_cons hlength, hget, List.reverse_cons, List.append_assoc]
    rfl
  | case2 i seen hi =>
    have hlength : bytes.data.toList.length ≤ i := by simpa using hi
    rw [List.drop_eq_nil_of_le hlength, List.append_nil]

theorem toList_eq (bytes : ByteArray) : bytes.toList = bytes.data.toList := by
  rw [ByteArray.toList, toList_loop]
  rfl

theorem encode_empty : Utf8.encode "" = [] := by
  rw [Utf8.encode, toList_eq]
  rfl

/-- Different texts have different bytes. -/
theorem encode_injective {s t : String} (h : Utf8.encode s = Utf8.encode t) : s = t := by
  rw [Utf8.encode, Utf8.encode, toList_eq, toList_eq] at h
  exact String.toByteArray_inj.mp (ByteArray.ext (Array.toList_inj.mp h))

/-! ## Escaped text -/

/-- An escaped text holds no character that divides an address. -/
theorem ne_of_mem_encode {s : String} {c : Char} (h : c ∈ Percent.encode s) :
    c ≠ '@' ∧ c ≠ ':' := by
  have hhex : ∀ n : Fin 16, Percent.hexDigit n ≠ '@' ∧ Percent.hexDigit n ≠ ':' := by decide
  obtain ⟨b, -, hc⟩ := List.mem_flatMap.mp h
  have hb := b.toNat_lt
  rw [Percent.encodeByte] at hc
  split at hc
  · next hfree =>
    -- a byte that stands for itself is a letter, a digit or one of four other marks
    obtain rfl := List.mem_singleton.mp hc
    rw [Percent.isUnreserved, Bool.and_eq_true] at hfree
    constructor <;> intro hmark <;> rw [hmark] at hfree <;> exact absurd hfree.2 (by decide)
  · rcases List.mem_cons.mp hc with rfl | hc
    · decide
    rcases List.mem_cons.mp hc with rfl | hc
    · exact hhex ⟨b.toNat / 16, by omega⟩
    · obtain rfl := List.mem_singleton.mp hc
      exact hhex ⟨b.toNat % 16, by omega⟩

theorem at_not_mem_encode (s : String) : '@' ∉ Percent.encode s :=
  fun h => (ne_of_mem_encode h).1 rfl

theorem colon_not_mem_encode (s : String) : ':' ∉ Percent.encode s :=
  fun h => (ne_of_mem_encode h).2 rfl

/-! ## Reading -/

/-- What an address says. -/
structure Reading where
  /-- The bytes of the user's name, none if there is no user. -/
  user : List UInt8
  /-- Those of the password, if there is one. -/
  password : Option (List UInt8)
  /-- What is behind the login. -/
  server : List Char
deriving DecidableEq

/-- Takes a login apart: a user, or a user and a password. -/
def readLogin? (login : List Char) : Option (List UInt8 × Option (List UInt8)) :=
  match cut ':' login with
  | (user, none) => (Percent.decode? user).map fun bytes => (bytes, none)
  | (user, some password) =>
    (Percent.decode? user).bind fun bytes =>
      (Percent.decode? password).map fun secret => (bytes, some secret)

/-- Takes an address apart. -/
def read? (address : String) : Option Reading :=
  (dropLeading? "redis://".toList address.toList).bind fun rest =>
    match cut '@' rest with
    | (server, none) => some ⟨[], none, server⟩
    | (login, some server) => (readLogin? login).map fun parts => ⟨parts.1, parts.2, server⟩

theorem readLogin?_user (u : String) :
    readLogin? (Percent.encode u) = some (Utf8.encode u, none) := by
  rw [readLogin?, cut_of_not_mem (colon_not_mem_encode u)]
  dsimp only
  rw [Percent.decode?_encode]
  rfl

theorem readLogin?_both (u p : String) :
    readLogin? (Percent.encode u ++ ':' :: Percent.encode p) =
      some (Utf8.encode u, some (Utf8.encode p)) := by
  rw [readLogin?, cut_append (colon_not_mem_encode u)]
  dsimp only
  rw [Percent.decode?_encode, Percent.decode?_encode]
  rfl

/-- Host and port, and the number of the database behind a slash. -/
def server (k : PoolKey) : List Char :=
  k.host.toList ++ ':' :: (Decimal.digits k.port ++ '/' :: Decimal.digits (databaseNumber k))

theorem toList_connectionAddress (k : PoolKey) : (connectionAddress k).toList =
    "redis://".toList ++ (login k.username k.password ++ server k) := by
  simp only [connectionAddress, PoolKey.address, server, String.toList_append, String.toList_ofList,
    Decimal.toList_toString]
  simp

theorem at_not_mem_server {k : PoolKey} (h : '@' ∉ k.host.toList) : '@' ∉ server k := by
  have hdigits : ∀ n, '@' ∉ Decimal.digits n := fun n hn =>
    absurd (Decimal.isDigit_of_mem_digits hn) (by decide)
  simp [server, h, hdigits]

/-- What a key says about the user and the password. -/
def credentials (k : PoolKey) : List UInt8 × Option (List UInt8) :=
  ((k.username.map Utf8.encode).getD [], k.password.map fun p => Utf8.encode p.reveal)

/-- The login of a key ends at the first at-sign, and is read as the key's credentials. -/
theorem exists_login {k : PoolKey} (h : k.username ≠ none ∨ k.password ≠ none) :
    ∃ text, login k.username k.password = text ++ ['@'] ∧ '@' ∉ text ∧
      readLogin? text = some (credentials k) := by
  have hboth : ∀ u p : String, '@' ∉ Percent.encode u ++ ':' :: Percent.encode p := by
    intro u p
    simp [at_not_mem_encode]
  rw [credentials]
  cases hu : k.username with
  | some u =>
    cases k.password with
    | some p => exact ⟨_, rfl, hboth u p.reveal, readLogin?_both u p.reveal⟩
    | none => exact ⟨_, rfl, at_not_mem_encode u, readLogin?_user u⟩
  | none =>
    cases hp : k.password with
    | some p =>
      -- without a user the login is that of a user with an empty name
      have hempty : Percent.encode "" = [] := by rw [Percent.encode, encode_empty, List.flatMap_nil]
      have hread := readLogin?_both "" p.reveal
      have hat := hboth "" p.reveal
      rw [hempty, List.nil_append] at hread hat
      rw [encode_empty] at hread
      exact ⟨_, rfl, hat, hread⟩
    | none => exact h.elim (absurd hu) (absurd hp)

/-- An address is read as what it was made from. -/
theorem read?_connectionAddress {k : PoolKey} (h : '@' ∉ k.host.toList) :
    read? (connectionAddress k) = some ⟨(credentials k).1, (credentials k).2, server k⟩ := by
  rw [read?, toList_connectionAddress, dropLeading?_append, Option.bind_some]
  by_cases hlogin : k.username ≠ none ∨ k.password ≠ none
  · obtain ⟨text, htext, hat, hread⟩ := exists_login hlogin
    rw [htext, List.append_assoc, List.singleton_append, cut_append hat]
    dsimp only
    rw [hread]
    rfl
  · obtain ⟨hu, hp⟩ := not_or.mp hlogin
    rw [credentials, Decidable.not_not.mp hu, Decidable.not_not.mp hp, login, List.nil_append,
      cut_of_not_mem (at_not_mem_server h)]
    rfl

/-! ## Different keys -/

/-- Users that have names are told apart by the bytes of these. -/
theorem username_injective {u u' : Option String} (hu : u ≠ some "") (hu' : u' ≠ some "")
    (h : (u.map Utf8.encode).getD [] = (u'.map Utf8.encode).getD []) : u = u' := by
  cases u with
  | some s =>
    cases u' with
    | some s' => exact congrArg some (encode_injective h)
    | none => exact absurd (congrArg some (encode_injective (h.trans encode_empty.symm))) hu
  | none =>
    cases u' with
    | some s' => exact absurd (congrArg some (encode_injective (h.symm.trans encode_empty.symm))) hu'
    | none => rfl

theorem password_injective {p p' : Option Secret}
    (h : p.map (fun p => Utf8.encode p.reveal) = p'.map fun p => Utf8.encode p.reveal) :
    p = p' := by
  cases p with
  | some s =>
    cases p' with
    | some s' =>
      exact congrArg (fun t => some (Secret.mk t)) (encode_injective (Option.some.inj h))
    | none => cases h
  | none =>
    cases p' with
    | some s' => cases h
    | none => rfl

/-- A host ends at the first colon, and a port at the slash behind it. -/
theorem server_injective {k k' : PoolKey} (hhost : ':' ∉ k.host.toList)
    (hhost' : ':' ∉ k'.host.toList) (h : server k = server k') :
    k.host = k'.host ∧ k.port = k'.port ∧ databaseNumber k = databaseNumber k' := by
  have hslash : ∀ n, '/' ∉ Decimal.digits n := fun n hn =>
    absurd (Decimal.isDigit_of_mem_digits hn) (by decide)
  have hdigits : ∀ {n n' : Nat}, Decimal.digits n = Decimal.digits n' → n = n' := by
    intro n n' heq
    rw [← Decimal.value_digits n, heq, Decimal.value_digits]
  have hcut := congrArg (cut ':') h
  rw [server, server, cut_append hhost, cut_append hhost'] at hcut
  obtain ⟨hhosts, hrest⟩ := Prod.mk.inj hcut
  have hcut' := congrArg (cut '/') (Option.some.inj hrest)
  rw [cut_append (hslash _), cut_append (hslash _)] at hcut'
  obtain ⟨hports, hnumbers⟩ := Prod.mk.inj hcut'
  exact ⟨String.toList_inj.mp hhosts, hdigits hports, hdigits (Option.some.inj hnumbers)⟩

/-- The credentials of a key, its host, its port and the number of its database can be read from its
    address, whatever characters the credentials have; so two keys that differ in any of these have
    different addresses. -/
theorem connectionAddress_faithful (k : PoolKey) (hhost : ∀ c ∈ k.host.toList, c ≠ '@' ∧ c ≠ ':')
    (huser : k.username ≠ some "") :
    read? (connectionAddress k) = some {
      user := (k.username.map Utf8.encode).getD []
      password := k.password.map fun p => Utf8.encode p.reveal
      server := (k.host ++ ":" ++ toString k.port ++ "/" ++ toString (databaseNumber k)).toList } ∧
    ∀ k' : PoolKey, (∀ c ∈ k'.host.toList, c ≠ '@' ∧ c ≠ ':') → k'.username ≠ some "" →
      connectionAddress k' = connectionAddress k →
        k'.username = k.username ∧ k'.password = k.password ∧ k'.host = k.host ∧ k'.port = k.port ∧
          databaseNumber k' = databaseNumber k := by
  have hat : ∀ k : PoolKey, (∀ c ∈ k.host.toList, c ≠ '@' ∧ c ≠ ':') → '@' ∉ k.host.toList :=
    fun k h hmem => (h _ hmem).1 rfl
  have hcolon : ∀ k : PoolKey, (∀ c ∈ k.host.toList, c ≠ '@' ∧ c ≠ ':') → ':' ∉ k.host.toList :=
    fun k h hmem => (h _ hmem).2 rfl
  have hread := read?_connectionAddress (hat k hhost)
  constructor
  · have hserver : (k.host ++ ":" ++ toString k.port ++ "/" ++ toString (databaseNumber k)).toList =
        server k := by
      simp only [String.toList_append, Decimal.toList_toString, server]
      simp
    rw [hserver]
    exact hread
  · intro k' hhost' huser' heq
    have hread' := read?_connectionAddress (hat k' hhost')
    rw [heq, hread] at hread'
    obtain ⟨husers, hpasswords, hservers⟩ := Reading.mk.inj (Option.some.inj hread'.symm)
    exact ⟨username_injective huser' huser husers, password_injective hpasswords,
      server_injective (hcolon k' hhost') (hcolon k hhost) hservers⟩

/-- A colon and an at-sign in the credentials are not taken for those that divide the address. -/
theorem connectionAddress_faithful_reserved :
    let k : PoolKey := ⟨.keyValue, "cache", 6380, some "a:b", some ⟨"c@d/é"⟩, some " 2 ", none⟩
    let k' : PoolKey := { k with username := some "a", password := some ⟨"b:c@d/é"⟩ }
    read? (connectionAddress k) =
        some ⟨Utf8.encode "a:b", some (Utf8.encode "c@d/é"), "cache:6380/2".toList⟩ ∧
      connectionAddress k' ≠ connectionAddress k := by
  intro k k'
  have hhost : ∀ c ∈ k.host.toList, c ≠ '@' ∧ c ≠ ':' := by simp [k]
  obtain ⟨hread, hdiffers⟩ := connectionAddress_faithful k hhost (by simp [k])
  have hserver : (k.host ++ ":" ++ toString k.port ++ "/" ++ toString (databaseNumber k)).toList =
      "cache:6380/2".toList := by decide +kernel
  rw [hserver] at hread
  refine ⟨hread, fun heq => ?_⟩
  obtain ⟨huser, -⟩ := hdiffers k' hhost (by simp [k']) heq
  exact absurd huser (by simp [k, k'])

/-- A server of a profile has no user without a name. -/
theorem username_ofProfile (p : Profile) (session : String) :
    ((Target.ofProfile p).key session).username ≠ some "" := by
  intro h
  obtain ⟨-, hfilled⟩ := Option.filter_eq_some_iff.mp (show p.username.filter _ = some "" from h)
  exact absurd hfilled (by decide)

end Polyshell.Redis
