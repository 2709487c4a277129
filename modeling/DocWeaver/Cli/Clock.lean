/-!
Times as the branch names of pull requests show them: `YYYYMMDDHHMMSS` in UTC.

A count of seconds since 1970-01-01 becomes a civil date by counting days from 0000-03-01 in
eras of 400 years, each of which has 146097 days; starting the year in March puts the leap day
last.
-/

namespace DocWeaver.Cli

def padded (width n : Nat) : String :=
  let s := toString n
  String.ofList (List.replicate (width - s.length) '0') ++ s

def civilDate (days : Nat) : Nat × Nat × Nat :=
  let z := days + 719468
  let era := z / 146097
  let doe := z % 146097
  let yoe := (doe - doe / 1460 + doe / 36524 - doe / 146096) / 365
  let doy := doe - (365 * yoe + yoe / 4 - yoe / 100)
  let mp := (5 * doy + 2) / 153
  let day := doy - (153 * mp + 2) / 5 + 1
  let month := if mp < 10 then mp + 3 else mp - 9
  let year := yoe + era * 400 + (if month ≤ 2 then 1 else 0)
  (year, month, day)

def timeStamp (seconds : Nat) : String :=
  let (y, m, d) := civilDate (seconds / 86400)
  let t := seconds % 86400
  padded 4 y ++ padded 2 m ++ padded 2 d ++ padded 2 (t / 3600) ++ padded 2 (t % 3600 / 60) ++ padded 2 (t % 60)

end DocWeaver.Cli
