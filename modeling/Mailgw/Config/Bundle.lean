import Mailgw.GoJson.Hiding
import Mailgw.Text.Decimal
import Mailgw.Text.Letters

namespace Mailgw.Config

open GoJson Json Text

section Decoders
variable {α : Type}

def boolInto : Decoder Bool
  | .null, b => some b
  | .bool b, _ => some b
  | _, _ => none

def intInto : Decoder Int
  | .null, n => some n
  | .num token, _ => parseInt64 token.val
  | _, _ => none

def portInto : Decoder Int
  | .null, n => some n
  | .num token, _ => parseInt64 token.val
  | .str s, _ => parseInt64 (trimSpace (chars s))
  | _, _ => none

def pointerInto (element : Decoder α) (zero : α) : Decoder (Option α)
  | .null, _ => some none
  | v, x => (element v (x.getD zero)).map some

def mapMembers (element : Decoder α) (zero : α) : List (Units × Tree) → (Chars → Option α) → Option (Chars → Option α)
  | [], m => some m
  | (key, v) :: rest, m =>
    (element v zero).bind fun x => mapMembers element zero rest fun k => if k = chars key then some x else m k

def mapInto (element : Decoder α) (zero : α) : Decoder (Chars → Option α)
  | .null, _ => some fun _ => none
  | .obj members, m => mapMembers element zero members m
  | _, _ => none

end Decoders

structure Relay where
  name : Chars := []
  exchange : Chars := []
  port : Int := 0
  priority : Int := 0
  authUser : Chars := []
  authPass : Chars := []
  authPassEnv : Chars := []
  useMX : Bool := false
  tls : Chars := []
  allowInsecureAuth : Bool := false

structure Logging where
  urlConn : Chars := []
  urlQueue : Chars := []
  urlDelivery : Chars := []
  apiKey : Chars := []

structure Admin where
  metricsToken : Chars := []

structure AuthUser where
  user : Chars := []
  hash : Chars := []

structure Auth where
  users : Slice AuthUser := .empty

structure Bundle where
  format : Int := 0
  server : Option Chars := none
  routing : Option Chars := none
  allowlist : Option Tree := none
  relays : Chars → Option (Slice Relay) := fun _ => none
  logging : Logging := {}
  admin : Option Admin := none
  auth : Option Auth := none

section Fields

def relayFields : List (StructField Relay) :=
  [⟨"name".toList, fun t r => (stringInto t r.name).map fun s => { r with name := s }⟩,
    ⟨"exchange".toList, fun t r => (stringInto t r.exchange).map fun s => { r with exchange := s }⟩,
    ⟨"port".toList, fun t r => (portInto t r.port).map fun n => { r with port := n }⟩,
    ⟨"priority".toList, fun t r => (intInto t r.priority).map fun n => { r with priority := n }⟩,
    ⟨"auth_user".toList, fun t r => (stringInto t r.authUser).map fun s => { r with authUser := s }⟩,
    ⟨"auth_pass".toList, fun t r => (stringInto t r.authPass).map fun s => { r with authPass := s }⟩,
    ⟨"auth_pass_env".toList, fun t r => (stringInto t r.authPassEnv).map fun s => { r with authPassEnv := s }⟩,
    ⟨"use_mx".toList, fun t r => (boolInto t r.useMX).map fun b => { r with useMX := b }⟩,
    ⟨"tls".toList, fun t r => (stringInto t r.tls).map fun s => { r with tls := s }⟩,
    ⟨"allow_insecure_auth".toList, fun t r => (boolInto t r.allowInsecureAuth).map fun b => { r with allowInsecureAuth := b }⟩]

def loggingFields : List (StructField Logging) :=
  [⟨"url_conn".toList, fun t l => (stringInto t l.urlConn).map fun s => { l with urlConn := s }⟩,
    ⟨"url_queue".toList, fun t l => (stringInto t l.urlQueue).map fun s => { l with urlQueue := s }⟩,
    ⟨"url_delivery".toList, fun t l => (stringInto t l.urlDelivery).map fun s => { l with urlDelivery := s }⟩,
    ⟨"api_key".toList, fun t l => (stringInto t l.apiKey).map fun s => { l with apiKey := s }⟩]

def adminFields : List (StructField Admin) :=
  [⟨"metrics_token".toList, fun t a => (stringInto t a.metricsToken).map fun s => { a with metricsToken := s }⟩]

def authUserFields : List (StructField AuthUser) :=
  [⟨"user".toList, fun t u => (stringInto t u.user).map fun s => { u with user := s }⟩,
    ⟨"hash".toList, fun t u => (stringInto t u.hash).map fun s => { u with hash := s }⟩]

def authFields : List (StructField Auth) :=
  [⟨"users".toList, fun t a => (sliceInto (structInto authUserFields) {} t a.users).map fun us => { a with users := us }⟩]

def bundleFields : List (StructField Bundle) :=
  [⟨"format".toList, fun t b => (intInto t b.format).map fun n => { b with format := n }⟩,
    ⟨"server".toList, fun t b => (pointerInto stringInto [] t b.server).map fun s => { b with server := s }⟩,
    ⟨"routing".toList, fun t b => (pointerInto stringInto [] t b.routing).map fun s => { b with routing := s }⟩,
    ⟨"allowlist".toList, fun t b => some { b with allowlist := some t }⟩,
    ⟨"relays".toList, fun t b =>
      (mapInto (sliceInto (structInto relayFields) {}) .empty t b.relays).map fun groups => { b with relays := groups }⟩,
    ⟨"logging".toList, fun t b => (structInto loggingFields t b.logging).map fun l => { b with logging := l }⟩,
    ⟨"admin".toList, fun t b => (pointerInto (structInto adminFields) {} t b.admin).map fun a => { b with admin := a }⟩,
    ⟨"auth".toList, fun t b => (pointerInto (structInto authFields) {} t b.auth).map fun a => { b with auth := a }⟩]

end Fields

def bundleFormat : Int := 1

def decodeBundle (doc : Raw) : Option Bundle := (structInto bundleFields doc.tree {}).filter fun b => b.format = bundleFormat

def parseBundle (raw : Bytes) : Option Bundle := (readDocument raw).bind decodeBundle

section Redaction

theorem isBody_redacted : isBody (ascii "[redacted]") = true := by decide +kernel

def redacted : Raw := .str ⟨ascii "[redacted]", isBody_redacted⟩

def isMap : Raw → Bool
  | .null => true
  | .obj _ => true
  | _ => false

def isMaps : Raw → Bool
  | .null => true
  | .arr vs => vs.all isMap
  | _ => false

def isGroups : Raw → Bool
  | .null => true
  | .obj ms => ms.all fun m => isMaps m.2
  | _ => false

def redactMaps (field : String) : Raw → Raw := mapArr (mapObj fun k v => if k = field.toList then redacted else v)

def redactRelays (v : Raw) : Raw := if isGroups v then mapObj (fun _ members => redactMaps "auth_pass" members) v else v

def hasUsers : Raw → Bool
  | .obj ms => (valueOf ms "users".toList).any isMaps
  | _ => false

def redactAuth (v : Raw) : Raw :=
  if hasUsers v then mapObj (fun k w => if k = "users".toList then redactMaps "hash" w else w) v else v

def hasField (field : String) : Raw → Bool
  | .obj ms => decide (field.toList ∈ keysOf ms)
  | _ => false

def redactField (field : String) (v : Raw) : Raw :=
  if hasField field v then mapObj (fun k w => if k = field.toList then redacted else w) v else v

def redactDocument (doc : Raw) : Raw :=
  mapObj (fun k v =>
    if k = "relays".toList then redactRelays v
    else if k = "auth".toList then redactAuth v
    else if k = "logging".toList then redactField "api_key" v
    else if k = "admin".toList then redactField "metrics_token" v
    else v) doc

def redactBundle (raw : Bytes) : Option Bytes :=
  (readDocument raw).bind fun doc => if isMap doc then some (indented 0 (redactDocument doc)) else none

end Redaction

section Secrets

structure Secrets where
  passwords : Chars → Option (List Chars)
  hashes : Option (List Chars)
  apiKey : Chars
  metricsToken : Option Chars

def Bundle.secrets (b : Bundle) : Secrets where
  passwords g := (b.relays g).map fun members => members.elements.map Relay.authPass
  hashes := b.auth.map fun a => a.users.elements.map AuthUser.hash
  apiKey := b.logging.apiKey
  metricsToken := b.admin.map Admin.metricsToken

structure Plain where
  format : Int
  server : Option Chars
  routing : Option Chars
  allowlist : Option Tree
  relays : Chars → Option (List Relay)
  logging : Logging
  admin : Bool
  users : Option (List Chars)

def Bundle.plain (b : Bundle) : Plain where
  format := b.format
  server := b.server
  routing := b.routing
  allowlist := b.allowlist
  relays g := (b.relays g).map fun members => members.elements.map fun r => { r with authPass := [] }
  logging := { b.logging with apiKey := [] }
  admin := b.admin.isSome
  users := b.auth.map fun a => a.users.elements.map AuthUser.user

/-- A string that is used as a secret: whatever stands in its place, the bundle says the same but for its secrets, and these change. -/
structure Secret (doc : Raw) (p : Place) : Prop where
  stands : (doc.stringAt p).isSome = true
  free : ∀ s, ∃ b b', decodeBundle doc = some b ∧ decodeBundle (doc.replace s p) = some b' ∧ b'.plain = b.plain
  used : ∃ s, (decodeBundle (doc.replace s p)).map Bundle.secrets ≠ (decodeBundle doc).map Bundle.secrets

def changed (changes : List (Place × Literal)) (doc : Raw) : Raw := changes.foldl (fun d c => d.replace c.2 c.1) doc

/-- Two bundles that are accepted and differ in the secrets that are used only. -/
def DifferInSecrets (raw raw' : Bytes) : Prop :=
  ∃ doc changes, readDocument raw = some doc ∧ readDocument raw' = some (changed changes doc) ∧
    (parseBundle raw).isSome = true ∧ (parseBundle raw').isSome = true ∧ ∀ c ∈ changes, Secret doc c.1

end Secrets

end Mailgw.Config
