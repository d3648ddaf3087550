import PiRelay.AgentProvider.OpenAiTranscript
import PiRelay.Library.Machine
import PiRelay.Library.SortedMap
import Mathlib.Data.String.Basic

/-! The OAuth credentials of MCP servers: a map in memory and the file it is kept in. -/
namespace PiRelay.AgentMcp

open AgentProvider (isBlank)
open Library (Json Machine SortedMap bind_eq_ok forM_eq_ok mem_insertEntry mem_insertEntry_self)

inductive OAuthCredentialStoreError where
  | empty
  | oversized
  | corrupt
  | unsupportedVersion
  | bounds
  | io
deriving DecidableEq

def fileVersion : UInt32 := 1
def maxFileBytes : Nat := 1024 * 1024
def maxIdentityBytes : Nat := 16 * 1024
def maxTokenBytes : Nat := 256 * 1024
def maxScopes : Nat := 256
def maxScopeBytes : Nat := 4 * 1024

structure StoredOAuthCredential where
  serverId : String
  serverUrl : String
  configuredClientId : Option String
  resource : Option String
  clientId : String
  accessToken : String
  refreshToken : Option String
  expiresAtMillis : Option UInt64
  grantedScopes : List String
deriving DecidableEq

/-- A text that is blank or has more bytes than it may. -/
def outOfBounds (maxBytes : Nat) (value : String) : Bool :=
  isBlank value || value.utf8ByteSize > maxBytes

def StoredOAuthCredential.validate (credential : StoredOAuthCredential) :
    Except OAuthCredentialStoreError Unit :=
  if [credential.serverId, credential.serverUrl, credential.clientId].any
      (outOfBounds maxIdentityBytes) ||
    credential.configuredClientId.any (outOfBounds maxIdentityBytes) ||
    credential.resource.any (·.utf8ByteSize > maxIdentityBytes) ||
    outOfBounds maxTokenBytes credential.accessToken ||
    credential.refreshToken.any (outOfBounds maxTokenBytes) ||
    credential.grantedScopes.length > maxScopes ||
    credential.grantedScopes.any (outOfBounds maxScopeBytes) then .error .bounds
  else .ok ()

structure CredentialFile where
  version : UInt32
  credentials : SortedMap String StoredOAuthCredential

/-- The digest is that of the compact text of a value, in hexadecimal digits; the map of a value
keeps its fields in the order of their names. -/
def credentialKey (sha256Hex : Json → String) (serverId serverUrl : String) : String :=
  let payload : Json :=
    .object [("headers", .object []), ("type", .string "http"), ("url", .string serverUrl)]
  serverId ++ "|" ++ String.ofList ((sha256Hex payload).toList.take 16)

/-- How a file is written as JSON and read again. -/
structure CredentialJson where
  toVec : CredentialFile → Option (List UInt8)
  fromSlice : List UInt8 → Option CredentialFile

/-- Which steps of the system succeed. -/
structure FileSteps where
  createDirAll : Bool
  setDirectoryPermissions : Bool
  tempfileIn : Bool
  setFilePermissions : Bool
  writeAll : Bool
  syncAll : Bool
  persist : Bool

structure OAuthCredentialRepository where
  /-- What stands at the path of the file. -/
  file : Option (List UInt8)
  /-- The path has a parent. -/
  hasParent : Bool
  contents : CredentialFile

inductive CredentialCall where
  | save (credential : StoredOAuthCredential) (steps : FileSteps)
  | remove (serverId serverUrl : String) (steps : FileSteps)

/-- What stands under the key of a call that succeeds. -/
def CredentialCall.stored : CredentialCall → Option StoredOAuthCredential
  | .save credential _ => some credential
  | .remove .. => none

def CredentialCall.key (sha256Hex : Json → String) : CredentialCall → String
  | .save credential _ => credentialKey sha256Hex credential.serverId credential.serverUrl
  | .remove serverId serverUrl _ => credentialKey sha256Hex serverId serverUrl

def isAsciiWhitespace (byte : UInt8) : Bool := [9, 10, 12, 13, 32].contains byte

def writeFile (json : CredentialJson) (hasParent : Bool) (steps : FileSteps)
    (file : Option (List UInt8)) (contents : CredentialFile) :
    Option (List UInt8) × Except OAuthCredentialStoreError Unit :=
  if !(hasParent && steps.createDirAll && steps.setDirectoryPermissions) then (file, .error .io)
  else
    match json.toVec contents with
    | none => (file, .error .corrupt)
    | some serialized =>
      if serialized.length > maxFileBytes then (file, .error .oversized)
      else if steps.tempfileIn && steps.setFilePermissions && steps.writeAll && steps.syncAll &&
          steps.persist then (some serialized, .ok ())
      else (file, .error .io)

section

variable (json : CredentialJson) (sha256Hex : Json → String)

def CredentialFile.validate (file : CredentialFile) : Except OAuthCredentialStoreError Unit := do
  if file.version ≠ fileVersion then throw .unsupportedVersion
  file.credentials.entries.forM fun (key, credential) => do
    credential.validate
    if key ≠ credentialKey sha256Hex credential.serverId credential.serverUrl then throw .corrupt

def readFile (file : Option (List UInt8)) :
    Except OAuthCredentialStoreError (Option CredentialFile) :=
  match file with
  | none => .ok none
  | some bytes =>
    if bytes.length > maxFileBytes then .error .oversized
    else if bytes.isEmpty || bytes.all isAsciiWhitespace then .error .empty
    else
      match json.fromSlice bytes with
      | none => .error .corrupt
      | some contents => (contents.validate sha256Hex).map fun _ => some contents

def openFile (file : Option (List UInt8)) : Except OAuthCredentialStoreError CredentialFile :=
  (readFile json sha256Hex file).map (·.getD ⟨fileVersion, .empty⟩)

namespace OAuthCredentialRepository

variable (repository : OAuthCredentialRepository)

def commit (replacement : CredentialFile) (steps : FileSteps) :
    OAuthCredentialRepository × Except OAuthCredentialStoreError Bool :=
  match writeFile json repository.hasParent steps repository.file replacement with
  | (file, .error error) => ({ repository with file }, .error error)
  | (file, .ok ()) => ({ repository with file, contents := replacement }, .ok true)

def save (credential : StoredOAuthCredential) (steps : FileSteps) :
    OAuthCredentialRepository × Except OAuthCredentialStoreError Bool :=
  let replacement := { repository.contents with
    credentials := repository.contents.credentials.insert
      (credentialKey sha256Hex credential.serverId credential.serverUrl) credential }
  match credential.validate, replacement.validate sha256Hex with
  | .error error, _ | _, .error error => (repository, .error error)
  | .ok (), .ok () => repository.commit json replacement steps

def remove (serverId serverUrl : String) (steps : FileSteps) :
    OAuthCredentialRepository × Except OAuthCredentialStoreError Bool :=
  let key := credentialKey sha256Hex serverId serverUrl
  if (repository.contents.credentials.get key).isSome then
    repository.commit json { repository.contents with
      credentials := repository.contents.credentials.filterMapValues fun other credential =>
        if other = key then none else some credential } steps
  else (repository, .ok false)

def call : CredentialCall → OAuthCredentialRepository × Except OAuthCredentialStoreError Bool
  | .save credential steps => repository.save json sha256Hex credential steps
  | .remove serverId serverUrl steps => repository.remove json sha256Hex serverId serverUrl steps

/-- Opening the file gives what is in memory. -/
def Mirrored : Prop := openFile json sha256Hex repository.file = .ok repository.contents

end OAuthCredentialRepository

/-- A repository of a file that could be opened, and its calls. -/
def credentialCalls : Machine OAuthCredentialRepository CredentialCall :=
  .ofCalls (·.Mirrored json sha256Hex) fun repository call =>
    (repository.call json sha256Hex call).1

end

section

variable {json : CredentialJson} {sha256Hex : Json → String} {contents : CredentialFile}
  {repository after : OAuthCredentialRepository} {call : CredentialCall}

structure CredentialFile.Valid (sha256Hex : Json → String) (contents : CredentialFile) :
    Prop where
  version : contents.version = fileVersion
  entries : ∀ entry ∈ contents.credentials.entries, entry.2.validate = .ok () ∧
    entry.1 = credentialKey sha256Hex entry.2.serverId entry.2.serverUrl

theorem CredentialFile.validate_eq_ok :
    contents.validate sha256Hex = .ok () ↔ contents.Valid sha256Hex := by
  rw [validate]
  split
  · rename_i other
    exact iff_of_false nofun fun valid => other valid.version
  · rename_i current
    trans
    · exact forM_eq_ok
    · constructor
      · intro passes
        refine ⟨not_not.mp current, fun entry listed => ?_⟩
        obtain ⟨_, isValid, checked⟩ := bind_eq_ok.mp (passes entry listed)
        split at checked
        · cases checked
        · rename_i same
          exact ⟨isValid, not_not.mp same⟩
      · intro valid entry listed
        apply bind_eq_ok.mpr
        exact ⟨(), (valid.entries entry listed).1, if_neg (not_not.mpr (valid.entries entry listed).2)⟩

theorem openFile_valid {file : Option (List UInt8)}
    (opens : openFile json sha256Hex file = .ok contents) : contents.Valid sha256Hex := by
  cases file with
  | none =>
    cases opens
    exact ⟨rfl, nofun⟩
  | some bytes =>
    rw [openFile, readFile] at opens
    split at opens
    · cases opens
    · split at opens
      · cases opens
      · split at opens
        · cases opens
        · rename_i read _
          cases isValid : read.validate sha256Hex with
          | error => 
            rw [isValid] at opens
            cases opens
          | ok =>
            rw [isValid] at opens
            cases opens
            exact CredentialFile.validate_eq_ok.mp isValid

/-- A call that fails changes nothing; after any other the file opens as the new contents. -/
def Mirrors (json : CredentialJson) (sha256Hex : Json → String)
    (repository : OAuthCredentialRepository) (call : CredentialCall) :
    OAuthCredentialRepository × Except OAuthCredentialStoreError Bool → Prop
  | (after, .error _) => after = repository
  | (after, .ok _) => after.Mirrored json sha256Hex ∧
      after.contents.credentials.get (call.key sha256Hex) = call.stored

variable
    (reads : ∀ contents bytes, json.toVec contents = some bytes →
      json.fromSlice bytes = some contents)
    (blank : ∀ bytes, bytes.all isAsciiWhitespace → json.fromSlice bytes = none)
include reads blank

/-- A step of the file keeps what stood there, or leaves what opens as the new contents. -/
theorem writeFile_cases {hasParent : Bool} {steps : FileSteps} {file : Option (List UInt8)}
    (valid : contents.Valid sha256Hex) :
    (∃ error, writeFile json hasParent steps file contents = (file, .error error)) ∨
      ∃ written, writeFile json hasParent steps file contents = (written, .ok ()) ∧
        openFile json sha256Hex written = .ok contents := by
  rw [writeFile]
  split
  · exact .inl ⟨_, rfl⟩
  · split
    · exact .inl ⟨_, rfl⟩
    · rename_i bytes serialized
      split
      · exact .inl ⟨_, rfl⟩
      · rename_i fits
        split
        · refine .inr ⟨_, rfl, ?_⟩
          have isRead := reads contents bytes serialized
          have visible : ¬(bytes.isEmpty || bytes.all isAsciiWhitespace) := by
            intro isBlank
            have spaces : bytes.all isAsciiWhitespace := by
              rcases Bool.or_eq_true_iff.mp isBlank with empty | spaces
              · rw [List.isEmpty_iff.mp empty]
                rfl
              · exact spaces
            cases isRead.symm.trans (blank bytes spaces)
          rw [openFile, readFile, if_neg fits, if_neg visible, isRead]
          simp only [CredentialFile.validate_eq_ok.mpr valid]
          rfl
        · exact .inl ⟨_, rfl⟩

theorem commit_mirrors {replacement : CredentialFile} {steps : FileSteps}
    (valid : replacement.Valid sha256Hex)
    (holds : replacement.credentials.get (call.key sha256Hex) = call.stored) :
    Mirrors json sha256Hex repository call (repository.commit json replacement steps) := by
  rw [OAuthCredentialRepository.commit]
  rcases writeFile_cases reads blank valid with ⟨error, failed⟩ | ⟨written, done, opens⟩
  · rw [failed]
    rfl
  · rw [done]
    exact ⟨opens, holds⟩

/-- A call leaves memory and file with the same credentials. -/
theorem call_mirrors
    (mirrored : repository.Mirrored json sha256Hex) (call : CredentialCall) :
    Mirrors json sha256Hex repository call (repository.call json sha256Hex call) := by
  cases call with
  | save credential steps =>
    rw [OAuthCredentialRepository.call, OAuthCredentialRepository.save]
    split
    · rfl
    · rfl
    · rename_i isValid
      exact commit_mirrors reads blank (CredentialFile.validate_eq_ok.mp isValid)
        (SortedMap.get_eq_some_iff.mpr mem_insertEntry_self)
  | remove serverId serverUrl steps =>
    rw [OAuthCredentialRepository.call, OAuthCredentialRepository.remove]
    split
    · have valid := openFile_valid mirrored
      apply commit_mirrors reads blank
      · refine ⟨valid.version, fun entry listed => ?_⟩
        obtain ⟨old, wasListed, chosen⟩ := List.mem_filterMap.mp listed
        obtain ⟨credential, kept, rfl⟩ := Option.map_eq_some_iff.mp chosen
        obtain ⟨-, isOld⟩ : _ ∧ old.2 = credential := by simpa using kept
        exact isOld ▸ valid.entries old wasListed
      · rw [SortedMap.get_filterMapValues]
        simp [CredentialCall.key, CredentialCall.stored]
    · rename_i absent
      exact ⟨mirrored, by simpa [CredentialCall.key, CredentialCall.stored] using absent⟩

/-- After any calls the file opens as what is in memory, a call that fails leaves both as
they were, and a credential reported saved or removed is so when the file is opened again. -/
theorem credentials_mirrored
    (reaches : (credentialCalls json sha256Hex).Reaches repository) :
    repository.Mirrored json sha256Hex ∧ ∀ call : CredentialCall,
      Mirrors json sha256Hex repository call (repository.call json sha256Hex call) := by
  have mirrored : repository.Mirrored json sha256Hex := by
    apply reaches.invariant
    · intro _ initially
      exact initially
    · rintro before call _ - mirrored rfl
      have step := call_mirrors reads blank mirrored call
      dsimp only
      generalize before.call json sha256Hex call = result at step
      rcases result with ⟨after, _ | _⟩
      · exact step ▸ mirrored
      · exact step.1
  exact ⟨mirrored, fun call => call_mirrors reads blank mirrored call⟩

end

private def aCredential : StoredOAuthCredential :=
  ⟨"s", "https://mcp.example/", none, none, "c", "t", none, none, []⟩

private def aSha256 (_ : Json) : String :=
  "28617a13c5029d6336ad07f820695e45f2d452acbe6f44bb2758d18d38074415"

private def aText (credentials : String) : List UInt8 :=
  ("\x7b\"version\":1,\"credentials\":\x7b" ++ credentials ++ "\x7d\x7d").toUTF8.toList

private def aFile : CredentialFile := ⟨1, .collect [("s|28617a13c5029d63", aCredential)]⟩

private def savedText : List UInt8 :=
  aText ("\"s|28617a13c5029d63\":\x7b\"server_id\":\"s\",\"server_url\":" ++
    "\"https://mcp.example/\",\"configured_client_id\":null,\"resource\":null," ++
    "\"client_id\":\"c\",\"access_token\":\"t\",\"refresh_token\":null," ++
    "\"expires_at_millis\":null,\"granted_scopes\":[]\x7d")

/-- JSON on the two files that the calls write. -/
private def twoJson : CredentialJson where
  toVec file :=
    if file.version = 1 ∧ file.credentials.entries = [] then some (aText "")
    else if file.version = 1 ∧ file.credentials.entries = aFile.credentials.entries then
      some savedText
    else none
  fromSlice bytes :=
    if bytes = aText "" then some ⟨1, .empty⟩
    else if bytes = savedText then some aFile
    else none

private def aRepository : OAuthCredentialRepository := ⟨none, true, ⟨1, .empty⟩⟩

private def aSave (persist : Bool) : CredentialCall :=
  .save aCredential ⟨true, true, true, true, true, true, persist⟩

private def aRemove (persist : Bool) : CredentialCall :=
  .remove "s" "https://mcp.example/" ⟨true, true, true, true, true, true, persist⟩

private def aCall (repository : OAuthCredentialRepository) (call : CredentialCall) :=
  repository.call twoJson aSha256 call

private def savedRepository : OAuthCredentialRepository :=
  [aSave false, aSave true].foldl (fun repository call => (aCall repository call).1) aRepository

/-- The first save and the first removal fail where the file is renamed. -/
theorem credentials_mirrored_removed :
    ([aCall aRepository (aSave false), aCall aRepository (aSave true),
        aCall savedRepository (aRemove false), aCall savedRepository (aRemove true)].map (·.2)) =
      [.error .io, .ok true, .error .io, .ok true] ∧
    savedRepository.Mirrored twoJson aSha256 ∧
    ∀ call, Mirrors twoJson aSha256 savedRepository call (aCall savedRepository call) := by
  have reads : ∀ contents bytes, twoJson.toVec contents = some bytes →
      twoJson.fromSlice bytes = some contents := by
    rintro ⟨version, credentials⟩ bytes written
    simp only [twoJson] at written ⊢
    split at written
    · rename_i isEmpty
      obtain ⟨rfl, same⟩ := isEmpty
      cases written
      obtain rfl : credentials = .empty := SortedMap.ext same
      rw [if_pos rfl]
    · split at written
      · rename_i isSaved
        obtain ⟨rfl, same⟩ := isSaved
        cases written
        have apart : savedText ≠ aText "" := by decide +kernel
        rw [if_neg apart, if_pos rfl, SortedMap.ext same, aFile]
      · cases written
  have blank : ∀ bytes, bytes.all isAsciiWhitespace → twoJson.fromSlice bytes = none := by
    intro bytes spaces
    have notEmpty : bytes ≠ aText "" := by
      rintro rfl
      exact absurd spaces (by decide +kernel)
    have notSaved : bytes ≠ savedText := by
      rintro rfl
      exact absurd spaces (by decide +kernel)
    simp [twoJson, notEmpty, notSaved]
  have starts : (credentialCalls twoJson aSha256).Reaches aRepository := .start rfl
  have reaches : (credentialCalls twoJson aSha256).Reaches savedRepository := starts.calls _
  refine ⟨by decide +kernel, credentials_mirrored reads blank reaches⟩

end PiRelay.AgentMcp
