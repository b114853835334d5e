import Mailgw.Text.Decimal
import Mailgw.Text.Rows

namespace Text

/-- How many seconds the clock on the wall is ahead of UTC at an instant. -/
class Zone where
  offset : Int → Int

namespace Utc

scoped instance zone : Zone := ⟨fun _ => 0⟩

end Utc

structure Date where
  year : Int
  month : Nat
  day : Nat
  deriving Repr, DecidableEq

/-- The date of a day in the Gregorian calendar, counted from the first of January 1970. Years begin in
    March here, so that a leap day is the last day of its year, and come in eras of 400. -/
def civil (days : Int) : Date :=
  let z := days + 719468
  let era := z / 146097
  let doe := (z % 146097).toNat
  let yoe := (doe - doe / 1460 + doe / 36524 - doe / 146096) / 365
  let doy := doe - (365 * yoe + yoe / 4 - yoe / 100)
  let mp := (5 * doy + 2) / 153
  let day := doy - (153 * mp + 2) / 5 + 1
  let month := if mp < 10 then mp + 3 else mp - 9
  ⟨yoe + era * 400 + (if month ≤ 2 then 1 else 0), month, day⟩

def weekdays : List (List Char) :=
  ["Sun".toList, "Mon".toList, "Tue".toList, "Wed".toList, "Thu".toList, "Fri".toList, "Sat".toList]

def months : List (List Char) :=
  ["Jan".toList, "Feb".toList, "Mar".toList, "Apr".toList, "May".toList, "Jun".toList, "Jul".toList, "Aug".toList,
    "Sep".toList, "Oct".toList, "Nov".toList, "Dec".toList]

def signedDecimal (width : Nat) (i : Int) : List Char :=
  if i < 0 then '-' :: padDecimal width i.natAbs else padDecimal width i.natAbs

def zoneText (offset : Int) : List Char :=
  let minutes := offset.tdiv 60
  (if minutes < 0 then '-' else '+') :: (padDecimal 2 (minutes.natAbs / 60) ++ padDecimal 2 (minutes.natAbs % 60))

/-- An instant, in nanoseconds from 1970, as "Mon, 02 Jan 2006 15:04:05 -0700". -/
def rfc1123Z [Zone] (nanos : Int) : List Char :=
  let sec := nanos / 1000000000
  let offset := Zone.offset sec
  let days := (sec + offset) / 86400
  let clock := ((sec + offset) % 86400).toNat
  let date := civil days
  weekdays.getD ((days + 4) % 7).toNat [] ++ ',' :: ' ' :: (padDecimal 2 date.day ++ ' ' ::
    (months.getD (date.month - 1) [] ++ ' ' :: (signedDecimal 4 date.year ++ ' ' ::
      (padDecimal 2 (clock / 3600) ++ ':' :: (padDecimal 2 (clock / 60 % 60) ++ ':' ::
        (padDecimal 2 (clock % 60) ++ ' ' :: zoneText offset))))))

open scoped Utc in
example : rfc1123Z 1785403230000000000 = "Thu, 30 Jul 2026 09:20:30 +0000".toList := by decide

/-- The instant that stands for none: the first of January of the year one. -/
def zeroTime : Int := -62135596800000000000

section OneLine

theorem oneLine_padDecimal (width n : Nat) : OneLine (padDecimal width n) :=
  oneLine_of_isDigit fun _ member => isDigit_of_mem_padDecimal member

theorem oneLine_signedDecimal (width : Nat) (i : Int) : OneLine (signedDecimal width i) := by
  simp only [signedDecimal]
  split
  · simp [oneLine_padDecimal]
  · exact oneLine_padDecimal width _

theorem oneLine_zoneText (offset : Int) : OneLine (zoneText offset) := by
  simp only [zoneText, oneLine_cons, oneLine_append, oneLine_padDecimal, and_true]
  split <;> decide

theorem oneLine_getD {names : List (List Char)} (plain : ∀ name ∈ names, OneLine name) (i : Nat) :
    OneLine (names.getD i []) := by
  rw [List.getD_eq_getElem?_getD]
  cases here : names[i]? with
  | none => exact oneLine_nil
  | some name => exact plain name (List.mem_of_getElem? here)

theorem oneLine_rfc1123Z [Zone] (nanos : Int) : OneLine (rfc1123Z nanos) := by
  have weekday : ∀ i, OneLine (weekdays.getD i []) := oneLine_getD (by decide)
  have month : ∀ i, OneLine (months.getD i []) := oneLine_getD (by decide)
  simp only [rfc1123Z, oneLine_append, oneLine_cons, weekday, month, oneLine_padDecimal, oneLine_signedDecimal,
    oneLine_zoneText, and_true, true_and]
  decide

end OneLine

end Text
