import Mailgw.Central.Canonical
import Mailgw.Lists.Table
import Mailgw.Queue.Names

namespace Mailgw.Central

open Js Json Lists Queue

structure Assignment where
  gatewayId : Int
  kind : Name
  profileId : Option Int := none
  relayGroupId : Option Int := none
  credentialSetId : Option Int := none
  deriving DecidableEq

structure ConfigProfile where
  id : Int
  body : Name
  deriving DecidableEq

structure RelayGroup where
  id : Int
  name : Option Name
  deriving DecidableEq

/-- A row of `Relays`. Its numbers are columns of 32 bits. -/
structure Relay where
  id : Int
  groupId : Option Int
  name : Option Name := none
  host : Option Name := none
  port : Option Int32 := none
  authUser : Option Name := none
  authPass : Option Name := none
  tls : Option Name := none
  allowInsecureAuth : Option Bool := none
  useMx : Option Bool := none
  priority : Option Int32 := none
  deriving DecidableEq

structure SmtpCredential where
  setId : Int
  username : Name
  hash : Name
  deriving DecidableEq

/-- The tables a bundle is composed from, with the keys their schema makes unique. The rows are in the
    order the database returns them. -/
structure Database where
  assignments : List Assignment := []
  profiles : List ConfigProfile := []
  groups : List RelayGroup := []
  relays : List Relay := []
  credentials : List SmtpCredential := []
  profileIds : (profiles.map ConfigProfile.id).Nodup
  groupIds : (groups.map RelayGroup.id).Nodup
  usernames : (credentials.map fun c => (c.setId, c.username)).Nodup

/-- What the process has besides the database: its environment, where a variable that is not set is empty,
    and the key of the stored passwords, which may throw. -/
structure Host where
  gatewayLogserviceUrl : Name := []
  logserviceUrl : Name := []
  gatewayLogserviceApiKey : Name := []
  logserviceApiKey : Name := []
  gatewayMetricsToken : Name := []
  decrypt : Name → Option Name

structure BundleRelay where
  name : Name
  exchange : Name
  port : Int32
  priority : Int32
  authUser : Option Name := none
  authPass : Option Name := none
  tls : Option Name := none
  useMx : Bool := false
  allowInsecureAuth : Bool := false
  deriving DecidableEq

structure GatewayBundle where
  server : Option Name
  routing : Option Name
  allowlist : Value
  relays : Table Name (List BundleRelay)
  logging : Value
  admin : Value
  auth : Option (List (Name × Name))

def firstOf (texts : List Name) (fallback : Name) : Name := (texts.find? fun s => s ≠ []).getD fallback

def truthy (s : Option Name) : Option Name := s.filter fun s => s ≠ []

/-- An object literal. A member that is not set counts as undefined. -/
def literal (members : List (Name × Value)) : Value := .object (members.map fun m => (unitsOf m.1, m.2))

def text (s : Name) : Value := .string (unitsOf s)

def optional (s : Option Name) : Value := s.elim .undefined text

def loggingEndpoints (h : Host) : Value :=
  let url := firstOf [h.gatewayLogserviceUrl, h.logserviceUrl] "http://localhost:3000".toList
  let base := (url.reverse.dropWhile (· = '/')).reverse
  let apiKey := firstOf [h.gatewayLogserviceApiKey, h.logserviceApiKey] []
  literal [("url_conn".toList, text (base ++ "/api/connection".toList)),
    ("url_queue".toList, text (base ++ "/api/queue".toList)),
    ("url_delivery".toList, text (base ++ "/api/delivery".toList)),
    ("api_key".toList, optional (truthy (some apiKey)))]

def adminSettings (h : Host) : Value :=
  match truthy (some h.gatewayMetricsToken) with
  | none => .undefined
  | some token => literal [("metrics_token".toList, text token)]

def emptyAllowlist : Value := literal [("allowed".toList, .array [])]

def parseAllowlist (body : Name) : Option Value := do
  let parsed ← parseJson body
  match parsed with
  | .object members =>
    match member members (unitsOf "allowed".toList) with
    | .array allowed =>
      let allowAll := match member members (unitsOf "allow_all".toList) with
        | .boolean true => .boolean true
        | _ => .undefined
      some (literal [("allowed".toList, .array allowed), ("allow_all".toList, allowAll)])
    | _ => none
  | _ => none

def Relay.bundled (h : Host) (m : Relay) : Option BundleRelay := do
  let authPass ← match truthy m.authPass with
    | none => some none
    | some stored => (h.decrypt stored).map some
  return {
    name := m.name.getD ("relay-".toList ++ (toString m.id).toList), exchange := m.host.getD []
    port := m.port.getD 25, priority := m.priority.getD 0, authUser := truthy m.authUser, authPass, tls := truthy m.tls
    useMx := m.useMx.getD false, allowInsecureAuth := m.allowInsecureAuth.getD false }

def protoName : Name := "__proto__".toList

/-- Sets a member of an object that was empty at first. The name `__proto__` makes no member: it sets
    what the object inherits. -/
def assign (table : Table Name (List BundleRelay)) (name : Name) (relays : List BundleRelay) :
    Table Name (List BundleRelay) :=
  if name = protoName then table else table.set name relays

def groupRelays (h : Host) (members : List Relay) (g : RelayGroup) : Option (List BundleRelay) :=
  (ranked (fun m => (m.priority.getD 0).toInt) (members.filter fun m => m.groupId = some g.id)).mapM (Relay.bundled h)

def addGroup (h : Host) (members : List Relay) (table : Table Name (List BundleRelay)) (g : RelayGroup) :
    Option (Table Name (List BundleRelay)) :=
  match truthy g.name with
  | none => some table
  | some name => (groupRelays h members g).map (assign table name)

def relayTable (h : Host) (db : Database) (ids : List Int) : Option (Table Name (List BundleRelay)) :=
  if ids = [] then some .empty
  else
    let groups := db.groups.filter fun g => g.id ∈ ids
    let members := db.relays.filter fun m => m.groupId.any (· ∈ ids)
    groups.foldlM (addGroup h members) .empty

def isProfileOf (kind : Name) (a : Assignment) : Bool := a.kind = kind && a.profileId.isSome

def profileBody (profiles : List ConfigProfile) (a : Assignment) : Option Name :=
  match a.profileId with
  | none => none
  | some id => if id = 0 then none else (profiles.find? fun p => p.id = id).map ConfigProfile.body

def bodyOfKind (assignments : List Assignment) (profiles : List ConfigProfile) (kind : Name) : Option Name :=
  (assignments.find? (isProfileOf kind)).bind (profileBody profiles)

def isCredentialSet (a : Assignment) : Bool := a.kind = "credentialset".toList && a.credentialSetId.isSome

def setUsers (credentials : List SmtpCredential) (a : Assignment) : Option (List (Name × Name)) :=
  match a.credentialSetId with
  | none => none
  | some setId =>
    if setId = 0 then none
    else
      let rows := credentials.filter fun c => c.setId = setId
      if rows = [] then none
      else some ((ranked (fun c => units c.username) rows).map fun c => (c.username, c.hash))

def inboundAuth (assignments : List Assignment) (credentials : List SmtpCredential) : Option (List (Name × Name)) :=
  (assignments.find? isCredentialSet).bind (setUsers credentials)

def allowlistOf (body : Option Name) : Option Value :=
  match truthy body with
  | none => some emptyAllowlist
  | some body => parseAllowlist body

def composeBundle (h : Host) (gatewayId : Int) (db : Database) : Option GatewayBundle := do
  let assignments := db.assignments.filter fun a => a.gatewayId = gatewayId
  let profileIds := assignments.filterMap Assignment.profileId
  let profiles := db.profiles.filter fun p => p.id ∈ profileIds
  let groupIds := (assignments.filter fun a => a.kind = "relaygroup".toList).filterMap Assignment.relayGroupId
  let relays ← relayTable h db groupIds
  let allowlist ← allowlistOf (bodyOfKind assignments profiles "allowlist".toList)
  return {
    server := bodyOfKind assignments profiles "server".toList
    routing := bodyOfKind assignments profiles "ruleset".toList
    allowlist, relays, logging := loggingEndpoints h, admin := adminSettings h
    auth := inboundAuth assignments db.credentials }

theorem natAbs_toInt_le (n : Int32) : n.toInt.natAbs ≤ 2 ^ 53 := by
  have below := n.toInt_lt
  have above := n.le_toInt
  omega

def number (n : Int32) : Value := .number (.finite (.ofInt n.toInt (natAbs_toInt_le n)))

def flag (set_ : Bool) : Value := if set_ then .boolean true else .undefined

def BundleRelay.members (r : BundleRelay) : List (Name × Value) :=
  [("name".toList, text r.name), ("exchange".toList, text r.exchange), ("port".toList, number r.port),
    ("priority".toList, number r.priority), ("auth_user".toList, optional r.authUser),
    ("auth_pass".toList, optional r.authPass), ("tls".toList, optional r.tls), ("use_mx".toList, flag r.useMx),
    ("allow_insecure_auth".toList, flag r.allowInsecureAuth)]

def BundleRelay.toValue (r : BundleRelay) : Value := literal r.members

def userValue (u : Name × Name) : Value := literal [("user".toList, text u.1), ("hash".toList, text u.2)]

def relaysValue (relays : Table Name (List BundleRelay)) : Value :=
  literal (relays.entries.map fun e => (e.1, .array (e.2.map BundleRelay.toValue)))

def authValue (users : List (Name × Name)) : Value := literal [("users".toList, .array (users.map userValue))]

def GatewayBundle.members (b : GatewayBundle) : List (Name × Value) :=
  [("format".toList, number 1), ("server".toList, b.server.elim .null text), ("routing".toList, b.routing.elim .null text),
    ("allowlist".toList, b.allowlist), ("relays".toList, relaysValue b.relays), ("logging".toList, b.logging),
    ("admin".toList, b.admin), ("auth".toList, b.auth.elim .undefined authValue)]

def GatewayBundle.toValue (b : GatewayBundle) : Value := literal b.members

def serialiseBundle (b : GatewayBundle) : Name := stableStringify b.toValue

end Mailgw.Central
