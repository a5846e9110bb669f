import Mathlib.Data.String.Basic
import AstraShell.Lib.Checked
import AstraShell.Lib.Text

/-!
# Trust on first use

`known_hosts.rs`: a certificate is checked against a text file of trusted fingerprints, and that of
a host without one is appended. The file is read again on every verification, with comments, blank
lines and a last line that may not be terminated.

`recordedFor` is what the file says about a host. A verification decides by it (`verify_eq`), and an
appended entry is read back as one more fingerprint of its own host and of no other
(`recordedFor_append`). `trust_on_first_use` is what follows for every sequence of
verifications.
-/

set_option autoImplicit false

namespace AstraShell.KnownHosts

open Lib Lib.Text

/-! ## Model -/

inductive StrictHostKeyChecking where
  | yes
  | ask
  | acceptNew
  | no
  deriving DecidableEq

inductive HostTrustResult where
  | known
  | added
  | acceptedWithoutSaving
  deriving DecidableEq

def certificateAlgorithm : Text := "x509-cert-sha256".toList

/-- A character that ends neither a word nor an entry. -/
def solid (c : Char) : Prop := isWhitespace c = false ∧ c ≠ '#'

instance (c : Char) : Decidable (solid c) := by
  unfold solid
  infer_instance

/-- What the standard library and the hash give: the text of an address, and the encoded digest of a
certificate. Neither has white space or a comment sign. -/
structure Platform where
  /-- The known-hosts path, as it is displayed. -/
  file : String
  ipAddr : Text → Option Text
  ipAddr_solid : ∀ host address, ipAddr host = some address → ∀ c ∈ address, solid c
  encodedDigest : List UInt8 → Text
  encodedDigest_solid : ∀ certificate, ∀ c ∈ encodedDigest certificate, solid c

/-- One call of `verify_server_certificate_with_confirmation`. -/
structure Verification where
  host : Text
  port : Nat
  certificate : List UInt8
  policy : StrictHostKeyChecking
  /-- The answer of the user, if it is asked for. -/
  confirm : Except String Bool

def certificateFingerprint (p : Platform) (certificate : List UInt8) : Text :=
  "SHA256:".toList ++ p.encodedDigest certificate

/-- The host under which a certificate is recorded. -/
def normalize (p : Platform) (host : Text) : Except String Text := do
  let host := trim host
  ensure (¬ (host = [] ∨ (host.any fun c => isWhitespace c || isControl c || c == '#') = true))
    "invalid host name for known-host verification"
  let normalized := match p.ipAddr host with
    | some address => address
    | none => (host.rdropWhile (· == '.')).map toAsciiLowercase
  ensure (normalized ≠ []) "invalid host name for known-host verification"
  return normalized

def keyOf (normalized : Text) (port : Nat) : Text :=
  '[' :: normalized ++ ']' :: ':' :: Nat.toDigits 10 port

def hostKey (p : Platform) (host : Text) (port : Nat) : Except String Text := do
  let normalized ← normalize p host
  return keyOf normalized port

/-- The fields of a line, without its comment; a blank line has none. -/
def entryFields (line : Text) : List Text := words (trim (line.takeWhile (· != '#')))

/-- The loop over the lines: `none` when the fingerprint is found, otherwise the other ones. -/
def scan (p : Platform) (key fingerprint : Text) :
    Nat → List Text → List (List Text) → Except String (Option (List Text))
  | _, expected, [] => .ok (some expected)
  | number, expected, fields :: rest =>
    if fields.head? ≠ some key then scan p key fingerprint (number + 1) expected rest
    else
      match fields with
      | _ :: algorithm :: recorded :: _ =>
        if algorithm ≠ certificateAlgorithm then
          scan p key fingerprint (number + 1) expected rest
        else if recorded = fingerprint then .ok none
        else scan p key fingerprint (number + 1) (expected ++ [recorded]) rest
      | _ => .error ("malformed Astra known-host entry for " ++ String.ofList key ++ " at " ++
          p.file ++ ":" ++ toString number)

def appendKnownHost (contents key fingerprint : Text) : Text :=
  let contents := if contents ≠ [] ∧ contents.getLast? ≠ some '\n' then contents ++ ['\n']
    else contents
  contents ++ key ++ ' ' :: certificateAlgorithm ++ ' ' :: fingerprint ++ ['\n']

/-- The end of a verification, after the loop: the result and what the file says afterwards. -/
def settle (p : Platform) (v : Verification) (key contents : Text) :
    Option (List Text) → Except String HostTrustResult × Text
  | none => (.ok .known, contents)
  | some expected =>
    let fingerprint := certificateFingerprint p v.certificate
    if expected ≠ [] ∧ v.policy ≠ .no then
      (.error ("REMOTE HOST CERTIFICATE HAS CHANGED for " ++ String.ofList key ++
        "\nexpected " ++ String.intercalate " or " (expected.map String.ofList) ++
        ", but the server presented " ++ String.ofList fingerprint ++
        "\nremove the stale entry from " ++ p.file ++
        " only after verifying the server through a trusted channel"), contents)
    else if expected ≠ [] then (.ok .acceptedWithoutSaving, contents)
    else
      match v.policy with
      | .yes =>
        (.error ("no trusted host certificate for " ++ String.ofList key ++ " in " ++ p.file ++
          "; connect once with the default interactive policy or use " ++
          "-o StrictHostKeyChecking=accept-new"), contents)
      | .ask =>
        match v.confirm with
        | .error e => (.error e, contents)
        | .ok false => (.error "host certificate was not trusted", contents)
        | .ok true => (.ok .added, appendKnownHost contents key fingerprint)
      | .acceptNew => (.ok .added, appendKnownHost contents key fingerprint)
      | .no => (.ok .acceptedWithoutSaving, contents)

def verifyServerCertificate (p : Platform) (v : Verification) (contents : Text) :
    Except String HostTrustResult × Text :=
  if v.certificate = [] then (.error "server presented an empty TLS certificate", contents)
  else
    match hostKey p v.host v.port with
    | .error e => (.error e, contents)
    | .ok key =>
      match scan p key (certificateFingerprint p v.certificate) 1 []
          ((lines contents).map entryFields) with
      | .error e => (.error e, contents)
      | .ok found => settle p v key contents found

/-- The file after a sequence of verifications. -/
def run (p : Platform) (contents : Text) (vs : List Verification) : Text :=
  vs.foldl (fun contents v => (verifyServerCertificate p v contents).2) contents

/-! ## What a file says -/

/-- The fingerprint of an entry for the key. -/
def recordedBy (key : Text) : List Text → Option Text
  | first :: algorithm :: recorded :: _ =>
    if first = key ∧ algorithm = certificateAlgorithm then some recorded else none
  | _ => none

/-- The fingerprints that a file has for a key. -/
def recordedFor (key contents : Text) : List Text :=
  ((lines contents).map entryFields).filterMap (recordedBy key)

/-- Every entry has its three fields. -/
def WellFormed (contents : Text) : Prop :=
  ∀ fields ∈ (lines contents).map entryFields, fields = [] ∨ 3 ≤ fields.length

/-- The two calls are about the same host and port. -/
def SameTarget (p : Platform) (v w : Verification) : Prop :=
  ∃ normalized, normalize p v.host = .ok normalized ∧ normalize p w.host = .ok normalized ∧
    v.port = w.port

/-! ## The scan -/

theorem scan_eq (p : Platform) (key fingerprint : Text) {entries : List (List Text)}
    (hwell : ∀ fields ∈ entries, fields = [] ∨ 3 ≤ fields.length) (number : Nat)
    (expected : List Text) :
    scan p key fingerprint number expected entries =
      if fingerprint ∈ entries.filterMap (recordedBy key) then .ok none
      else .ok (some (expected ++ entries.filterMap (recordedBy key))) := by
  induction entries generalizing number expected with
  | nil => simp [scan]
  | cons fields rest ih =>
    have hrest := ih fun fields' h => hwell fields' (List.mem_cons_of_mem _ h)
    unfold scan
    rcases hwell fields List.mem_cons_self with rfl | hlength
    · exact hrest (number + 1) expected
    · obtain ⟨first, algorithm, recorded, others, rfl⟩ :
          ∃ first algorithm recorded others, fields = first :: algorithm :: recorded :: others := by
        match fields, hlength with
        | first :: algorithm :: recorded :: others, _ => exact ⟨_, _, _, _, rfl⟩
      by_cases hkey : first = key
      · have hhead : ¬ ((first :: algorithm :: recorded :: others).head? ≠ some key) := by
          simp [hkey]
        rw [if_neg hhead]
        dsimp only
        by_cases halgorithm : algorithm = certificateAlgorithm
        · have hrecorded : recordedBy key (first :: algorithm :: recorded :: others) =
              some recorded := if_pos ⟨hkey, halgorithm⟩
          rw [if_neg (not_not_intro halgorithm), List.filterMap_cons_some hrecorded]
          by_cases hfound : recorded = fingerprint
          · rw [if_pos hfound, if_pos (hfound ▸ List.mem_cons_self)]
          · rw [if_neg hfound, hrest]
            simp only [List.mem_cons, Ne.symm hfound, false_or, List.append_assoc]
            rfl
        · have hrecorded : recordedBy key (first :: algorithm :: recorded :: others) = none :=
            if_neg fun h => halgorithm h.2
          rw [if_pos halgorithm, hrest, List.filterMap_cons_none hrecorded]
      · have hrecorded : recordedBy key (first :: algorithm :: recorded :: others) = none :=
          if_neg fun h => hkey h.1
        have hhead : (first :: algorithm :: recorded :: others).head? ≠ some key := by
          simpa using hkey
        rw [if_pos hhead, hrest, List.filterMap_cons_none hrecorded]

/-! ## Keys -/

section Keys

variable {p : Platform} {host normalized key : Text} {port : Nat}

/-- The last colon of two texts tells where they are to be cut. -/
theorem cut_at_last {a b d e : Text} {c : Char} (hd : c ∉ d) (he : c ∉ e)
    (h : a ++ c :: d = b ++ c :: e) : a = b ∧ d = e := by
  rcases List.append_eq_append_iff.1 h with ⟨mid, hb, hcd⟩ | ⟨mid, ha, hce⟩
  · cases mid with
    | nil =>
      rw [List.append_nil] at hb
      exact ⟨hb.symm, (List.cons.inj hcd).2⟩
    | cons x mid =>
      rw [List.cons_append, List.cons.injEq] at hcd
      rw [hcd.2] at hd
      simp at hd
  · cases mid with
    | nil =>
      rw [List.append_nil] at ha
      exact ⟨ha, (List.cons.inj hce).2.symm⟩
    | cons x mid =>
      rw [List.cons_append, List.cons.injEq] at hce
      rw [hce.2] at he
      simp at he

theorem toDigits_mem {port : Nat} {c : Char} (h : c ∈ Nat.toDigits 10 port) :
    48 ≤ c.toNat ∧ c.toNat ≤ 57 := by
  have hdigit := Nat.isDigit_of_mem_toDigits (by decide) (by decide) h
  simp only [Char.isDigit, Bool.and_eq_true, decide_eq_true_eq, ge_iff_le,
    UInt32.le_iff_toNat_le] at hdigit
  exact hdigit

theorem colon_notMem_toDigits (port : Nat) : ':' ∉ Nat.toDigits 10 port := by
  intro hmem
  exact absurd (toDigits_mem hmem) (by decide)

/-- Two different pairs have different keys, whatever the host looks like. -/
theorem keyOf_inj {normalized' : Text} {port' : Nat}
    (h : keyOf normalized port = keyOf normalized' port') :
    normalized = normalized' ∧ port = port' := by
  have hcut : ('[' :: normalized ++ [']']) ++ ':' :: Nat.toDigits 10 port =
      ('[' :: normalized' ++ [']']) ++ ':' :: Nat.toDigits 10 port' := by
    simpa [keyOf] using h
  obtain ⟨hname, hport⟩ :=
    cut_at_last (colon_notMem_toDigits port) (colon_notMem_toDigits port') hcut
  constructor
  · have hinit := List.append_cancel_right hname
    exact (List.cons.inj hinit).2
  · rw [← @Nat.ofDigitChars_ten_toDigits port, hport, Nat.ofDigitChars_ten_toDigits]

theorem solid_toAsciiLowercase {c : Char} (h : solid c) : solid (toAsciiLowercase c) := by
  rw [toAsciiLowercase]
  split
  next hupper =>
    have hvalid : (c.toNat + 32).isValidChar := .inl (by omega)
    have hnat : (Char.ofNat (c.toNat + 32)).toNat = c.toNat + 32 := by
      rw [Char.ofNat, dif_pos hvalid]
      rfl
    constructor
    · rw [isWhitespace, hnat, decide_eq_false_iff_not]
      omega
    · intro heq
      have hhash := congrArg Char.toNat heq
      rw [hnat] at hhash
      change c.toNat + 32 = 35 at hhash
      omega
  next => exact h

theorem solid_of_normalize (h : normalize p host = .ok normalized) : ∀ c ∈ normalized, solid c := by
  simp only [normalize, bind_eq_ok_iff, ensure_eq_ok_iff, pure_eq_ok_iff] at h
  obtain ⟨⟨⟩, hhost, ⟨⟩, -, rfl⟩ := h
  rw [not_or, Bool.not_eq_true, List.any_eq_false] at hhost
  intro c hc
  cases hip : p.ipAddr (trim host) with
  | some address =>
    rw [hip] at hc
    exact p.ipAddr_solid _ _ hip c hc
  | none =>
    rw [hip] at hc
    obtain ⟨d, hd, rfl⟩ := List.mem_map.1 hc
    have hmem := (List.rdropWhile_prefix _ _).subset hd
    have hclean := hhost.2 d hmem
    simp only [Bool.or_eq_true, beq_iff_eq, not_or, Bool.not_eq_true] at hclean
    exact solid_toAsciiLowercase ⟨hclean.1.1, hclean.2⟩

theorem hostKey_eq_ok (h : hostKey p host port = .ok key) :
    ∃ normalized, normalize p host = .ok normalized ∧ key = keyOf normalized port := by
  simp only [hostKey, bind_eq_ok_iff, pure_eq_ok_iff] at h
  obtain ⟨normalized, hnormalized, rfl⟩ := h
  exact ⟨normalized, hnormalized, rfl⟩

/-- A key is one word without a comment. -/
theorem solid_of_hostKey (h : hostKey p host port = .ok key) : ∀ c ∈ key, solid c := by
  obtain ⟨normalized, hnormalized, rfl⟩ := hostKey_eq_ok h
  intro c hc
  simp only [keyOf, List.cons_append, List.mem_cons, List.mem_append] at hc
  rcases hc with rfl | hc | rfl | rfl | hc
  · decide
  · exact solid_of_normalize hnormalized c hc
  · decide
  · decide
  · have hdigit := toDigits_mem hc
    constructor
    · rw [isWhitespace, decide_eq_false_iff_not]
      omega
    · rintro rfl
      exact absurd hdigit (by decide)

end Keys

/-! ## An appended entry -/

section Append

variable {contents key fingerprint : Text}

/-- The carriage return of a line break is no part of a field. -/
theorem entryFields_stripReturn (line : Text) :
    entryFields (stripReturn line) = entryFields line := by
  rw [entryFields, entryFields, words_trim, words_trim, stripReturn]
  split
  next h =>
    obtain ⟨init, rfl⟩ := List.getLast?_eq_some_iff.1 h
    rw [List.dropLast_concat, List.takeWhile_append]
    split
    next hall =>
      -- No comment: the return ends the last field.
      have htake : init.takeWhile (· != '#') = init :=
        (List.takeWhile_prefix _).eq_of_length hall
      have hreturn : List.takeWhile (· != '#') ['\r'] = ['\r'] := by decide
      rw [htake, hreturn, words_append init [] (by decide), words_nil, List.append_nil]
    next => rfl
  next => rfl

theorem entryFields_entry (hkey : ∀ c ∈ key, solid c) (hkeyne : key ≠ [])
    (hfp : ∀ c ∈ fingerprint, solid c) (hfpne : fingerprint ≠ []) :
    entryFields (key ++ ' ' :: certificateAlgorithm ++ ' ' :: fingerprint) =
      [key, certificateAlgorithm, fingerprint] := by
  have halgorithm : ∀ c ∈ certificateAlgorithm, solid c := forall_of_all (by decide)
  have hline : ∀ c ∈ key ++ ' ' :: certificateAlgorithm ++ ' ' :: fingerprint, (c != '#') =
      true := by
    intro c hc
    simp only [List.mem_append, List.mem_cons] at hc
    rw [bne_iff_ne]
    rcases hc with (hc | rfl | hc) | rfl | hc
    · exact (hkey c hc).2
    · decide
    · exact (halgorithm c hc).2
    · decide
    · exact (hfp c hc).2
  rw [entryFields, words_trim, List.takeWhile_eq_self_iff.2 hline, words_append _ _ (by decide),
    words_append _ _ (by decide), words_of_solid (fun c hc => (hkey c hc).1) hkeyne,
    words_of_solid (fun c hc => (halgorithm c hc).1) (by decide),
    words_of_solid (fun c hc => (hfp c hc).1) hfpne]
  rfl

/-- A file with one more entry. -/
theorem entries_append (hkey : ∀ c ∈ key, solid c) (hkeyne : key ≠ [])
    (hfp : ∀ c ∈ fingerprint, solid c) (hfpne : fingerprint ≠ []) :
    (lines (appendKnownHost contents key fingerprint)).map entryFields =
      (lines contents).map entryFields ++ [[key, certificateAlgorithm, fingerprint]] := by
  -- The new line has no break in it.
  have hsolid : ∀ c ∈ key ++ ' ' :: certificateAlgorithm ++ ' ' :: fingerprint,
      isNewline c = false := by
    intro c hc
    have halgorithm : ∀ c ∈ certificateAlgorithm, isNewline c = false := forall_of_all (by decide)
    have hword : ∀ d, solid d → isNewline d = false := by
      intro d hd
      rw [isNewline, beq_eq_false_iff_ne]
      rintro rfl
      exact absurd hd.1 (by decide)
    simp only [List.mem_append, List.mem_cons] at hc
    rcases hc with (hc | rfl | hc) | rfl | hc
    · exact hword c (hkey c hc)
    · decide
    · exact halgorithm c hc
    · decide
    · exact hword c (hfp c hc)
  have hline : (lines (key ++ ' ' :: certificateAlgorithm ++ ' ' :: fingerprint ++ ['\n'])).map
      entryFields = [[key, certificateAlgorithm, fingerprint]] := by
    rw [lines_append_newline, List.splitOnP_eq_singleton fun c hc => by simp [hsolid c hc],
      List.map_singleton, List.map_singleton, entryFields_stripReturn,
      entryFields_entry hkey hkeyne hfp hfpne]
  -- What comes before it ends with a break, or is nothing.
  have hjoin : ∀ t rest, (lines (t ++ '\n' :: rest)).map entryFields =
      (lines (t ++ ['\n'])).map entryFields ++ (lines rest).map entryFields := by
    intro t rest
    rw [lines_append, List.map_append]
  rw [appendKnownHost]
  split
  next hopen =>
    obtain ⟨init, last, hlines, hbroken⟩ := lines_of_unterminated hopen.1 hopen.2
    have hsame : (lines (contents ++ ['\n'])).map entryFields =
        (lines contents).map entryFields := by
      rw [hbroken, hlines, List.map_append, List.map_append, List.map_singleton,
        List.map_singleton, entryFields_stripReturn]
    rw [← hline, ← hsame, ← hjoin]
    simp
  next hclosed =>
    rcases List.eq_nil_or_concat contents with rfl | ⟨init, c, rfl⟩
    · rw [← hline]
      rfl
    · have hc : c = '\n' := by
        by_contra hne
        apply hclosed
        simpa using hne
      subst hc
      rw [List.concat_eq_append, ← hline, ← hjoin]
      simp

end Append

/-! ## Verifications -/

section Verify

variable {p : Platform} {v : Verification} {contents key : Text}

theorem solid_fingerprint (p : Platform) (certificate : List UInt8) :
    ∀ c ∈ certificateFingerprint p certificate, solid c := by
  have hlabel : ∀ c ∈ "SHA256:".toList, solid c := forall_of_all (by decide)
  exact List.forall_mem_append.2 ⟨hlabel, p.encodedDigest_solid certificate⟩

theorem entries_added (h : hostKey p v.host v.port = .ok key) :
    (lines (appendKnownHost contents key (certificateFingerprint p v.certificate))).map
      entryFields = (lines contents).map entryFields ++
        [[key, certificateAlgorithm, certificateFingerprint p v.certificate]] := by
  have hkey : key ≠ [] := by
    obtain ⟨normalized, -, rfl⟩ := hostKey_eq_ok h
    exact List.cons_ne_nil _ _
  have hlabel : "SHA256:".toList ≠ [] := by decide
  exact entries_append (solid_of_hostKey h) hkey (solid_fingerprint p _)
    (List.append_ne_nil_of_left_ne_nil hlabel _)

/-- An appended entry is one more fingerprint of its key and of no other. -/
theorem recordedFor_append (h : hostKey p v.host v.port = .ok key) (key' : Text) :
    recordedFor key' (appendKnownHost contents key (certificateFingerprint p v.certificate)) =
      recordedFor key' contents ++
        if key' = key then [certificateFingerprint p v.certificate] else [] := by
  rw [recordedFor, entries_added h, List.filterMap_append, recordedFor]
  congr 1
  by_cases hkey : key' = key
  · subst hkey
    simp [recordedBy]
  · simp [recordedBy, hkey, Ne.symm hkey]

/-- A verification decides by what is recorded for its key. -/
def found (p : Platform) (v : Verification) (key contents : Text) : Option (List Text) :=
  if certificateFingerprint p v.certificate ∈ recordedFor key contents then none
  else some (recordedFor key contents)

theorem verify_eq (hwell : WellFormed contents) (hcert : v.certificate ≠ [])
    (hkey : hostKey p v.host v.port = .ok key) :
    verifyServerCertificate p v contents = settle p v key contents (found p v key contents) := by
  have hscan := scan_eq p key (certificateFingerprint p v.certificate) hwell 1 []
  rw [verifyServerCertificate, if_neg hcert, hkey]
  dsimp only
  rw [hscan, found, recordedFor, List.nil_append]
  split_ifs <;> rfl

/-- The result does not depend on the rest of the file. -/
theorem settle_fst (p : Platform) (v : Verification) (key contents contents' : Text)
    (found : Option (List Text)) :
    (settle p v key contents found).1 = (settle p v key contents' found).1 := by
  cases found with
  | none => rfl
  | some expected =>
    rw [settle, settle]
    split
    · rfl
    split
    · rfl
    split
    · rfl
    · split <;> rfl
    · rfl
    · rfl

theorem verify_empty (contents : Text) (hcert : v.certificate = []) :
    (verifyServerCertificate p v contents).1 =
      .error "server presented an empty TLS certificate" := by
  rw [verifyServerCertificate, if_pos hcert]

/-- What can happen to the file: nothing, or the entry of a host that had none. -/
theorem settle_cases (p : Platform) (v : Verification) (key contents : Text)
    (found : Option (List Text)) :
    (settle p v key contents found).2 = contents ∧ (settle p v key contents found).1 ≠ .ok .added ∨
      found = some [] ∧ v.policy ≠ .no ∧ settle p v key contents found = (.ok .added,
        appendKnownHost contents key (certificateFingerprint p v.certificate)) := by
  cases found with
  | none => exact .inl ⟨rfl, nofun⟩
  | some expected =>
    by_cases hexpected : expected = []
    · subst hexpected
      rw [settle, if_neg fun h => h.1 rfl, if_neg fun h => h rfl]
      cases hpolicy : v.policy with
      | yes | no => exact .inl ⟨rfl, nofun⟩
      | acceptNew => exact .inr ⟨rfl, nofun, rfl⟩
      | ask =>
        cases v.confirm with
        | error e => exact .inl ⟨rfl, nofun⟩
        | ok answer =>
          cases answer with
          | false => exact .inl ⟨rfl, nofun⟩
          | true => exact .inr ⟨rfl, nofun, rfl⟩
    · rw [settle, if_pos hexpected]
      split
      · exact .inl ⟨rfl, nofun⟩
      · exact .inl ⟨rfl, nofun⟩

theorem verify_cases (p : Platform) (v : Verification) (hwell : WellFormed contents) :
    (verifyServerCertificate p v contents).2 = contents ∧
        (verifyServerCertificate p v contents).1 ≠ .ok .added ∨
      ∃ key, hostKey p v.host v.port = .ok key ∧ v.certificate ≠ [] ∧ v.policy ≠ .no ∧
        recordedFor key contents = [] ∧
        verifyServerCertificate p v contents = (.ok .added,
          appendKnownHost contents key (certificateFingerprint p v.certificate)) := by
  by_cases hcert : v.certificate = []
  · rw [verifyServerCertificate, if_pos hcert]
    exact .inl ⟨rfl, nofun⟩
  cases hkey : hostKey p v.host v.port with
  | error e =>
    rw [verifyServerCertificate, if_neg hcert, hkey]
    exact .inl ⟨rfl, nofun⟩
  | ok key =>
    rw [verify_eq hwell hcert hkey]
    rcases settle_cases p v key contents (found p v key contents) with hsame | ⟨hnew, hno, hadded⟩
    · exact .inl hsame
    · refine .inr ⟨key, rfl, hcert, hno, ?_, hadded⟩
      rw [found] at hnew
      split at hnew
      · cases hnew
      · exact Option.some.inj hnew

theorem wellFormed_verify (v : Verification) (hwell : WellFormed contents) :
    WellFormed (verifyServerCertificate p v contents).2 := by
  rcases verify_cases p v hwell with ⟨hsame, -⟩ | ⟨key, hkey, -, -, -, hadded⟩
  · rwa [hsame]
  · rw [hadded, WellFormed, entries_added hkey]
    exact List.forall_mem_append.2 ⟨hwell, List.forall_mem_singleton.2 (.inr (Nat.le_refl 3))⟩

theorem wellFormed_run (vs : List Verification) (hwell : WellFormed contents) :
    WellFormed (run p contents vs) := by
  induction vs generalizing contents with
  | nil => exact hwell
  | cons v rest ih => exact ih (wellFormed_verify v hwell)

/-- What is recorded stays recorded. -/
theorem recordedFor_verify (v : Verification) (hwell : WellFormed contents) {fingerprint : Text}
    (hmem : fingerprint ∈ recordedFor key contents) :
    fingerprint ∈ recordedFor key (verifyServerCertificate p v contents).2 := by
  rcases verify_cases p v hwell with ⟨hsame, -⟩ | ⟨key', hkey', -, -, -, hadded⟩
  · rwa [hsame]
  · rw [hadded, recordedFor_append hkey']
    exact List.mem_append_left _ hmem

theorem recordedFor_run (vs : List Verification) (hwell : WellFormed contents) {fingerprint : Text}
    (hmem : fingerprint ∈ recordedFor key contents) :
    fingerprint ∈ recordedFor key (run p contents vs) := by
  induction vs generalizing contents with
  | nil => exact hmem
  | cons v rest ih => exact ih (wellFormed_verify v hwell) (recordedFor_verify v hwell hmem)

theorem verify_known (hwell : WellFormed contents) (hcert : v.certificate ≠ [])
    (hkey : hostKey p v.host v.port = .ok key)
    (hmem : certificateFingerprint p v.certificate ∈ recordedFor key contents) :
    (verifyServerCertificate p v contents).1 = .ok .known := by
  rw [verify_eq hwell hcert hkey, found, if_pos hmem]
  rfl

/-- With something recorded, a policy other than `no` accepts exactly what is recorded, and never an
empty certificate. -/
theorem accepted_iff (hwell : WellFormed contents) (hkey : hostKey p v.host v.port = .ok key)
    (hrecorded : recordedFor key contents ≠ []) (hno : v.policy ≠ .no) :
    (∃ result, (verifyServerCertificate p v contents).1 = .ok result) ↔
      v.certificate ≠ [] ∧ certificateFingerprint p v.certificate ∈ recordedFor key contents := by
  constructor
  · rintro ⟨result, hresult⟩
    have hcert : v.certificate ≠ [] := by
      intro hempty
      rw [verify_empty _ hempty] at hresult
      cases hresult
    refine ⟨hcert, ?_⟩
    by_contra hmem
    rw [verify_eq hwell hcert hkey, found, if_neg hmem, settle, if_pos ⟨hrecorded, hno⟩] at hresult
    cases hresult
  · rintro ⟨hcert, hmem⟩
    exact ⟨.known, verify_known hwell hcert hkey hmem⟩

theorem hostKey_of_sameTarget {w : Verification} (h : SameTarget p v w)
    (hkey : hostKey p v.host v.port = .ok key) : hostKey p w.host w.port = .ok key := by
  obtain ⟨normalized, hv, hw, hport⟩ := h
  rw [hostKey, hv] at hkey
  rw [hostKey, hw, ← hport]
  exact hkey

/-- A verification does not touch what is recorded for another host or port. -/
theorem verify_other (v w : Verification) (hwell : WellFormed contents)
    (hother : ¬ SameTarget p v w) :
    (verifyServerCertificate p w (verifyServerCertificate p v contents).2).1 =
      (verifyServerCertificate p w contents).1 := by
  have hwell' := wellFormed_verify (p := p) v hwell
  by_cases hcert : w.certificate = []
  · rw [verify_empty _ hcert, verify_empty _ hcert]
  cases hkey : hostKey p w.host w.port with
  | error e => simp only [verifyServerCertificate, if_neg hcert, hkey]
  | ok key =>
    have hsame : recordedFor key (verifyServerCertificate p v contents).2 =
        recordedFor key contents := by
      rcases verify_cases p v hwell with ⟨hsame, -⟩ | ⟨key', hkey', -, -, -, hadded⟩
      · rw [hsame]
      · rw [hadded, recordedFor_append hkey', if_neg, List.append_nil]
        rintro rfl
        obtain ⟨nw, hnw, heq⟩ := hostKey_eq_ok hkey
        obtain ⟨nv, hnv, heq'⟩ := hostKey_eq_ok hkey'
        obtain ⟨rfl, hport⟩ := keyOf_inj (heq'.symm.trans heq)
        exact hother ⟨nv, hnv, hnw, hport⟩
    rw [verify_eq hwell' hcert hkey, verify_eq hwell hcert hkey, found, found, hsame]
    exact settle_fst _ _ _ _ _ _

end Verify

/-! ## Main result -/

/-- At every point of every sequence of verifications: a host with recorded fingerprints accepts
exactly the certificates with those, unless the policy is `no`; the policy `no` leaves the file
alone; an added certificate is known from then on; no verification changes the result of one for
another host or port; and two different pairs of host and port have different keys. -/
theorem trust_on_first_use (p : Platform) {text : Text} (hwell : WellFormed text)
    (vs : List Verification) :
    (∀ v key, hostKey p v.host v.port = .ok key → recordedFor key (run p text vs) ≠ [] →
      v.policy ≠ .no →
      ((∃ result, (verifyServerCertificate p v (run p text vs)).1 = .ok result) ↔
        v.certificate ≠ [] ∧
          certificateFingerprint p v.certificate ∈ recordedFor key (run p text vs))) ∧
    (∀ v : Verification, v.policy = .no →
      (verifyServerCertificate p v (run p text vs)).2 = run p text vs) ∧
    (∀ v w : Verification, (verifyServerCertificate p v (run p text vs)).1 = .ok .added →
      SameTarget p v w → w.certificate = v.certificate → ∀ later,
        (verifyServerCertificate p w
          (run p (verifyServerCertificate p v (run p text vs)).2 later)).1 = .ok .known) ∧
    (∀ v w, ¬ SameTarget p v w →
      (verifyServerCertificate p w (verifyServerCertificate p v (run p text vs)).2).1 =
        (verifyServerCertificate p w (run p text vs)).1) ∧
    ∀ normalized normalized' port port', keyOf normalized port = keyOf normalized' port' →
      normalized = normalized' ∧ port = port' := by
  have hrun : WellFormed (run p text vs) := wellFormed_run vs hwell
  refine ⟨?_, ?_, ?_, ?_, ?_⟩
  · intro v key hkey hrecorded hno
    exact accepted_iff hrun hkey hrecorded hno
  · intro v hno
    rcases verify_cases p v hrun with ⟨hsame, -⟩ | ⟨-, -, -, hyes, -⟩
    · exact hsame
    · exact absurd hno hyes
  · intro v w hadded hsame hcertificate later
    rcases verify_cases p v hrun with ⟨-, hnot⟩ | ⟨key, hkey, hcert, -, -, heq⟩
    · exact absurd hadded hnot
    · have hmem : certificateFingerprint p w.certificate ∈
          recordedFor key (verifyServerCertificate p v (run p text vs)).2 := by
        rw [heq, recordedFor_append hkey, if_pos rfl, hcertificate]
        exact List.mem_append_right _ List.mem_cons_self
      have hwell' := wellFormed_verify (p := p) v hrun
      apply verify_known (wellFormed_run later hwell')
      · rwa [hcertificate]
      · exact hostKey_of_sameTarget hsame hkey
      · exact recordedFor_run later hwell' hmem
  · intro v w hother
    exact verify_other v w hrun hother
  · intro normalized normalized' port port' h
    exact keyOf_inj h

/-- A digest that is the certificate itself, one character a byte. -/
def plainDigest (certificate : List UInt8) : Text :=
  certificate.map fun byte => Char.ofNat (0x100 + byte.toNat)

theorem plainDigest_solid (certificate : List UInt8) : ∀ c ∈ plainDigest certificate, solid c := by
  intro c hc
  obtain ⟨byte, -, rfl⟩ := List.mem_map.1 hc
  have hall : ∀ n : Fin 256, solid (Char.ofNat (0x100 + n)) := by decide +kernel
  exact hall ⟨byte.toNat, byte.toNat_lt⟩

def plainPlatform : Platform where
  file := "known_hosts"
  ipAddr := fun _ => none
  ipAddr_solid := nofun
  encodedDigest := plainDigest
  encodedDigest_solid := plainDigest_solid

def newHost (certificate : List UInt8) : Verification where
  host := "Example.org.".toList
  port := 22
  certificate := certificate
  policy := .acceptNew
  confirm := .ok false

/-- A first certificate is added to an empty file, and another one is refused from then on. -/
theorem trust_on_first_use_newHost :
    (verifyServerCertificate plainPlatform (newHost [1]) []).1 = .ok .added ∧
      ¬ ∃ result, (verifyServerCertificate plainPlatform (newHost [2])
        (run plainPlatform [] [newHost [1]])).1 = .ok result := by
  refine ⟨by decide +kernel, ?_⟩
  have hwell : WellFormed [] := by
    intro fields hfields
    cases hfields
  have hkey : hostKey plainPlatform (newHost [2]).host (newHost [2]).port =
      .ok "[example.org]:22".toList := by decide +kernel
  have hiff := (trust_on_first_use plainPlatform hwell [newHost [1]]).1 (newHost [2])
    "[example.org]:22".toList hkey (by decide +kernel) nofun
  rw [hiff]
  decide +kernel

/-- The file records the fingerprint of the empty certificate, which is refused all the same. -/
theorem recorded_empty_certificate_refused :
    WellFormed "[example.org]:22 x509-cert-sha256 SHA256:".toList ∧
    hostKey plainPlatform (newHost []).host (newHost []).port = .ok "[example.org]:22".toList ∧
    certificateFingerprint plainPlatform (newHost []).certificate ∈
      recordedFor "[example.org]:22".toList "[example.org]:22 x509-cert-sha256 SHA256:".toList ∧
    (newHost []).policy ≠ .no ∧
    ¬ ∃ result, (verifyServerCertificate plainPlatform (newHost [])
      "[example.org]:22 x509-cert-sha256 SHA256:".toList).1 = .ok result := by
  refine ⟨?_, by decide +kernel, by decide +kernel, nofun, ?_⟩
  · unfold WellFormed
    decide +kernel
  · rw [verify_empty _ rfl]
    rintro ⟨result, hresult⟩
    cases hresult

/-- A file that verifications have written has one certificate at most for a host and port. -/
theorem length_recordedFor_run_le (p : Platform) (vs : List Verification) (key : Text) :
    (recordedFor key (run p [] vs)).length ≤ 1 := by
  refine (List.foldlRecOn
    (motive := fun text => WellFormed text ∧ (recordedFor key text).length ≤ 1)
    vs _ ⟨by simp [WellFormed, lines], by simp [recordedFor, lines]⟩ ?_).2
  rintro text ⟨hwell, hone⟩ v -
  refine ⟨wellFormed_verify v hwell, ?_⟩
  rcases verify_cases p v hwell with ⟨hsame, -⟩ | ⟨key', hkey', -, -, hnone, hadded⟩
  · rwa [hsame]
  · rw [hadded, recordedFor_append hkey']
    grind

end AstraShell.KnownHosts
