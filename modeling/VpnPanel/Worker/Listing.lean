import VpnPanel.Worker.FullReconcile

/-!
# A listing of any pages

The loop of `_remnawave_full_reconcile` with a configured client, over any
answers: pages of any length with any totals, errors at any time. An error is
one of the request or of a malformed answer.
-/

namespace VpnPanel.Worker

open VpnPanel.Lib VpnPanel.Backend

/-- A page answer: its normalised users, and the fields a total may come in. -/
structure UsersAnswer where
  users : List RemnawaveUserIn
  total : Option Int := none
  totalCount : Option Int := none
  count : Option Int := none

/-- `a or b`: a zero is passed over. -/
def orElse (a b : Option Int) : Option Int := if a.any (· ≠ 0) then a else b

/-- The `total` of `extract_users_page`. -/
def UsersAnswer.reported (page : UsersAnswer) : Option Int :=
  orElse (orElse page.total page.totalCount) page.count

/-- The body of `/remnawave/reconcile-complete`. -/
structure ReconcileReport where
  seenUuids : List String
  pages : Nat
  users : Nat
  upserted : Nat
  total : Option Int
  deriving DecidableEq, Repr

inductive ListingStatus
  | running
  | completed
  | failed (error : String)
  deriving DecidableEq, Repr

/-- The variables of the loop, the tables of the backend and what it was told.
`answers` are the pages so far. -/
structure Listing where
  start : Nat := 0
  fetched : Nat := 0
  pages : Nat := 0
  upserted : Nat := 0
  seen : List String := []
  total : Option Int := none
  db : Db
  status : ListingStatus := .running
  reports : List ReconcileReport := []
  answers : List UsersAnswer := []

namespace Listing

/-- The number of users the backend lists as upserted. -/
def upsertedCount : Reply → Nat
  | .upserted uuids _ _ => uuids.length
  | _ => 0

/-- The report after the loop. -/
def report (run : Listing) : ReconcileReport where
  seenUuids := sortedTexts run.seen
  pages := run.pages
  users := run.fetched
  upserted := run.upserted
  total := run.total

variable (cfg : Config)

/-- `complete_remnawave_reconcile`. -/
def complete (run : Listing) (now : Time) : Listing :=
  let report := run.report
  let run := { run with reports := run.reports ++ [report] }
  match handle cfg run.db now (.reconcileComplete report.seenUuids) with
  | .error error => { run with status := .failed error.detail }
  | .ok effect => { run with db := effect.db, status := .completed }

/-- The loop after the import of a page. -/
def imported (run : Listing) (users : List RemnawaveUserIn) (effect : Effect) : Listing :=
  { run with
    db := effect.db
    upserted := run.upserted + upsertedCount effect.reply
    fetched := run.fetched + users.length
    pages := run.pages + 1
    start := run.start + users.length }

/-- One round of the loop on a page. -/
def turn (run : Listing) (page : UsersAnswer) (now : Time) : Listing :=
  let run := { run with total := page.reported, answers := run.answers ++ [page] }
  if page.users = [] then complete cfg run now
  else
    let run := { run with
      seen := run.seen ++ (page.users.map (·.uuid)).filter (· ≠ "") }
    match handle cfg run.db now (.upsert page.users) with
    | .error error => { run with status := .failed error.detail }
    | .ok effect =>
        let run := imported run page.users effect
        if run.total.any (· ≤ (run.start : Int)) then complete cfg run now else run

/-- The next request, while the loop runs. -/
def next (run : Listing) (answer : Except String UsersAnswer) (now : Time) : Listing :=
  match run.status, answer with
  | .running, .ok page => turn cfg run page now
  | .running, .error error => { run with status := .failed error }
  | _, _ => run

end Listing

/-- The reconcile after `n` requests, the `n`-th answered at `clock n`. -/
def fullReconcile (cfg : Config) (clock : Nat → Time) (answers : Nat → Except String UsersAnswer)
    (db : Db) : Nat → Listing
  | 0 => { db }
  | n + 1 => (fullReconcile cfg clock answers db n).next cfg (answers n) (clock n)

end VpnPanel.Worker
