import Daku.Base.Int64
import Daku.Base.Text

/-!
# Calendar days

Ages in whole days as `crates/daku-core/src/last_clone.rs:101–146` computes them. Operations that
can leave the `i64` range are marked: `wrap` is what the machine makes of their exact result, and
`id` gives the calendar over all integers.
-/

namespace Daku.Signals

open Daku.Base

/-- `days_in_month` (`last_clone.rs:125–135`). -/
def daysInMonth (year month : Int) : Int :=
  if month ∈ [1, 3, 5, 7, 8, 10, 12] then 31
  else if month ∈ [4, 6, 9, 11] then 30
  else if month = 2 then
    if year.tmod 4 = 0 ∧ (year.tmod 100 ≠ 0 ∨ year.tmod 400 = 0) then 29 else 28
  else 0

/-- `days_from_civil` (`last_clone.rs:139–146`). -/
def daysFromCivil (wrap : Int → Int) (year month day : Int) : Int :=
  let year := if month ≤ 2 then wrap (year - 1) else year
  let era := (if 0 ≤ year then year else wrap (year - 399)).tdiv 400
  let yearOfEra := wrap (year - era * 400)
  let dayOfYear := (153 * (if 2 < month then month - 3 else month + 9) + 2).tdiv 5 + day - 1
  let dayOfEra := wrap (yearOfEra * 365 + yearOfEra.tdiv 4 - yearOfEra.tdiv 100 + dayOfYear)
  wrap (wrap (wrap (era * 146097) + dayOfEra) - 719468)

/-- `age_days` (`last_clone.rs:106–121`). -/
def ageDays (completed : String) (observedAt : Int) : Option Int :=
  let date := (splitChar 'T' ((splitChar ' ' completed).headD "")).headD ""
  match splitChar '-' date with
  | [year, month, day] => do
    let year ← parseI64 year
    let month ← parseI64 month
    let day ← parseI64 day
    if month < 1 ∨ 12 < month ∨ day < 1 ∨ 31 < day then none
    else if daysInMonth year month < day then none
    else some (max (wrapI64 (observedAt / 86400 - daysFromCivil wrapI64 year month day)) 0)
  | _ => none

end Daku.Signals
