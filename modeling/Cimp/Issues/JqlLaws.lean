import Cimp.Issues.Narrowing

namespace Cimp.ListQuery

open Jql

variable (js : Runtime) (pg : Postgres) (staffId : Uuid)

variable {js pg staffId} {row : Row pg.ts} {field v : String} {values : List String}

namespace Sample

def assignedIssue : Issue :=
  { DeflectionService.issueOf Cimp.Sample.context "It does not print" with assignee := some "bob" }

def assigned : Db :=
  { Db.empty with
    issues := ⟨[assignedIssue], by simp⟩
    staffUsers := ⟨[staffNamed "bob" "Bob Smith"], by simp⟩ }

end Sample

end Cimp.ListQuery
