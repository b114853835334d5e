import Mailgw.Deliver.Reader

namespace Mailgw.Dsn

open Deliver

inductive Kind where
  | failed | delayed | relayed
  deriving Repr, DecidableEq

structure Rcpt where
  addr : Chars
  origAddr : Chars := []
  origType : Chars := []
  status : Chars := []
  diagnostic : Chars := []
  remoteMTA : Chars := []
  lastAttempt : Option Int := none
  deriving Repr, DecidableEq

structure Report where
  reportingMTA : Chars
  fromAddr : Chars
  toAddr : Chars
  kind : Kind
  originalID : Chars
  envelopeID : Chars := []
  messageID : Chars
  arrivalDate : Int
  now : Int
  rcpts : List Rcpt
  original : Option Reader := none
  full : Bool := false
  retryUntil : Option Int := none
  deriving Repr, DecidableEq

/-- Why a report cannot be rendered. The one that can is rendered as it stands. -/
def build (r : Report) : Except Chars Report := do
  if r.reportingMTA = [] then throw "dsn: no reporting MTA".toList
  if r.fromAddr = [] then throw "dsn: no postmaster address".toList
  if r.toAddr = [] then throw "dsn: no recipient for the notification".toList
  if r.rcpts = [] then throw "dsn: no recipients to report on".toList
  match r.original.bind Reader.broken with
  | some cut => throw ("dsn: read original message: ".toList ++ cut.err)
  | none => return r

theorem build_ok {r r' : Report} (built : build r = .ok r') : r' = r := by
  simp only [build] at built
  repeat' split at built
  all_goals cases built
  rfl

/-- A report about somebody, from somebody to somebody, whose quoted original can be read. -/
structure Report.Ready (r : Report) : Prop where
  mta : r.reportingMTA ≠ []
  fromAddr : r.fromAddr ≠ []
  toAddr : r.toAddr ≠ []
  rcpts : r.rcpts ≠ []
  original : ∀ original, r.original = some original → original.Sound

theorem Report.Ready.build {r : Report} (ready : r.Ready) : build r = .ok r := by
  have unbroken : r.original.bind Reader.broken = none := by
    cases quoted : r.original with
    | none => rfl
    | some original => exact ready.original original quoted
  simp [Dsn.build, ready.mta, ready.fromAddr, ready.toAddr, ready.rcpts, unbroken, Pure.pure, Except.pure]

end Mailgw.Dsn
