import Cimp.Common

namespace Cimp

inductive IssueEvent
  | created (issueId platformId : Uuid)
  | statusChanged (issueId platformId : Uuid) (old target : IssueStatus) (actorStaffId : String)
  | priorityChanged (issueId platformId : Uuid) (old target : Priority) (actorStaffId : String)
  | assigned (issueId platformId : Uuid) (assigneeId : Option Uuid) (actorStaffId : String)
  | merged (duplicateIssueId canonicalIssueId platformId : Uuid) (actorStaffId : String)
  | commentAdded (issueId platformId commentId : Uuid) (reporterVisible : Bool) (actorStaffId : String)
      (mentionStaffIds : List Uuid)
  | slaBreached (issueId platformId : Uuid)
  | csatReceived (issueId platformId : Uuid) (score : ℕ)
deriving DecidableEq, Repr

end Cimp
