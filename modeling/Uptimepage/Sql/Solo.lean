import Uptimepage.Sql.ReadCommitted

/-!
# A transaction with nobody else about

`solo` runs a program of statements on a database that no other session uses.  Two programs
of one transaction, or a program and the function it is meant to be, are compared on it.
-/

namespace Sql

variable {Db Key Write Phase : Type}

/-- At most `fuel` statements from phase `p`, with the writes of the open transaction so far. -/
def solo (apply : Db → Write → Db) (next : Db → Phase → Option (Move Key Write Phase)) :
    Nat → Db → List Write → Phase → Option (Db × Phase)
  | 0, _, _, _ => none
  | fuel + 1, db, pending, p =>
    match next (pending.foldl apply db) p with
    | none => some (db, p)
    | some (.run _ writes p') => solo apply next fuel db (pending ++ writes) p'
    | some (.commit p') => solo apply next fuel (pending.foldl apply db) [] p'
    | some (.rollback p') => solo apply next fuel db [] p'

variable {apply : Db → Write → Db} {next : Db → Phase → Option (Move Key Write Phase)}
  {fuel : Nat} {db : Db} {pending : List Write} {p : Phase}

theorem solo_end (h : next (pending.foldl apply db) p = none) :
    solo apply next (fuel + 1) db pending p = some (db, p) := by
  rw [solo, h]

theorem solo_run {keys : List Key} {writes : List Write} {p' : Phase}
    (h : next (pending.foldl apply db) p = some (.run keys writes p')) :
    solo apply next (fuel + 1) db pending p = solo apply next fuel db (pending ++ writes) p' := by
  rw [solo, h]

theorem solo_commit {p' : Phase} (h : next (pending.foldl apply db) p = some (.commit p')) :
    solo apply next (fuel + 1) db pending p =
      solo apply next fuel (pending.foldl apply db) [] p' := by
  rw [solo, h]

theorem solo_rollback {p' : Phase} (h : next (pending.foldl apply db) p = some (.rollback p')) :
    solo apply next (fuel + 1) db pending p = solo apply next fuel db [] p' := by
  rw [solo, h]

end Sql
