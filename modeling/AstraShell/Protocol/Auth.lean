import AstraShell.Protocol.Frame

/-!
# The authentication payload

`authentication_payload` of `auth.rs`: what a client signs to log in. Each field comes after its
length, in four bytes as before a frame.

`authenticationPayload_unambiguous`: no payload is the beginning of the payload of something else.
-/

set_option autoImplicit false

namespace AstraShell.Auth

open Protocol

def bytes (text : String) : List UInt8 := text.toUTF8.data.toList

/-- What a signature is for. -/
@[ext]
structure Login where
  challenge : List UInt8
  username : String
  serverInstance : String
  deriving DecidableEq

/-- Every field is shorter than what its length can say. -/
structure Login.Short (login : Login) : Prop where
  challenge : login.challenge.length < 2 ^ 32
  username : (bytes login.username).length < 2 ^ 32
  serverInstance : (bytes login.serverInstance).length < 2 ^ 32

/-- The length as a `u32`, and the field. -/
def appendField (output field : List UInt8) : List UInt8 :=
  output ++ (frameHeader field.length ++ field)

def authenticationPayload (login : Login) : List UInt8 :=
  let payload := bytes "ASTRA-AUTH-V1\x00"
  let payload := appendField payload login.challenge
  let payload := appendField payload (bytes login.username)
  appendField payload (bytes login.serverInstance)

theorem bytes_injective {text text' : String} (h : bytes text = bytes text') : text = text' := by
  have hdata : text.toUTF8 = text'.toUTF8 := ByteArray.ext (Array.toList_inj.1 h)
  exact String.toByteArray_inj.1 hdata

/-- The length says where a field ends, whatever comes after it. -/
theorem field_append_inj {field field' rest rest' : List UInt8} (hshort : field.length < 2 ^ 32)
    (hshort' : field'.length < 2 ^ 32)
    (h : frameHeader field.length ++ (field ++ rest) =
      frameHeader field'.length ++ (field' ++ rest')) : field = field' ∧ rest = rest' := by
  obtain ⟨hheader, hrest⟩ := List.append_inj h rfl
  have hlength := congrArg frameLength hheader
  rw [frameLength_frameHeader hshort, frameLength_frameHeader hshort'] at hlength
  exact List.append_inj hrest hlength

theorem login_eq {login login' : Login} (hshort : login.Short) (hshort' : login'.Short)
    (h : authenticationPayload login <+: authenticationPayload login') : login = login' := by
  obtain ⟨rest, hrest⟩ := h
  rw [← List.append_nil (authenticationPayload login')] at hrest
  simp only [authenticationPayload, appendField, List.append_assoc, List.append_cancel_left_eq]
    at hrest
  -- The fields are compared one after the other; nothing comes after the last one.
  obtain ⟨hchallenge, hrest⟩ := field_append_inj hshort.challenge hshort'.challenge hrest
  obtain ⟨husername, hrest⟩ := field_append_inj hshort.username hshort'.username hrest
  obtain ⟨hinstance, -⟩ := field_append_inj hshort.serverInstance hshort'.serverInstance hrest
  exact Login.ext hchallenge (bytes_injective husername) (bytes_injective hinstance)

/-- Equal payloads are of equal logins, and no payload is a proper prefix of another one. -/
theorem authenticationPayload_unambiguous (login login' : Login) (hshort : login.Short)
    (hshort' : login'.Short) :
    (authenticationPayload login = authenticationPayload login' → login = login') ∧
      ¬ (authenticationPayload login <+: authenticationPayload login' ∧
        authenticationPayload login ≠ authenticationPayload login') := by
  refine ⟨fun h => login_eq hshort hshort' (h ▸ List.prefix_refl _), ?_⟩
  rintro ⟨h, hne⟩
  exact hne (congrArg authenticationPayload (login_eq hshort hshort' h))

/-- A name that ends with what the other instance begins with. -/
theorem authenticationPayload_unambiguous_moved :
    authenticationPayload ⟨[7], "ab", "c"⟩ ≠ authenticationPayload ⟨[7], "a", "bc"⟩ := by
  intro h
  have hsame := (authenticationPayload_unambiguous ⟨[7], "ab", "c"⟩ ⟨[7], "a", "bc"⟩
    ⟨by decide, by decide, by decide⟩ ⟨by decide, by decide, by decide⟩).1 h
  exact absurd hsame (by decide)

end AstraShell.Auth
