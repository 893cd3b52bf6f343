import Cimp.Issues.Changes

namespace Cimp

def Issue.synced (now : Time) (key : Option String) (status : JiraSyncStatus) (row : Issue) : Issue :=
  { row with
    jiraIssueKey := key.or row.jiraIssueKey
    jiraSyncStatus := status
    updatedAt := now
    version := row.version + 1 }

@[simp] theorem Issue.synced_id (now : Time) (key : Option String) (status : JiraSyncStatus) (row : Issue) :
    (row.synced now key status).id = row.id := rfl

namespace JiraListener

def pendingStaleMs : Time := 15 * 60000

def isPendingClaimStale (now : Time) (issue : Issue) : Bool := pendingStaleMs < now - issue.updatedAt

def update (now : Time) (id : Uuid) (key : Option String) (status : JiraSyncStatus) (db : Db) : Db :=
  { db with issues := db.issues.update id (Issue.synced now key status) (Issue.synced_id now key status) }

theorem update_issues (now : Time) (id : Uuid) (key : Option String) (status : JiraSyncStatus) (db : Db) :
    (update now id key status db).issues =
      db.issues.update id (Issue.synced now key status) (Issue.synced_id now key status) := rfl

def markFailed (env : Env) (id : Uuid) (db : Db) : Db :=
  if env.statement 2 then db else update env.now id none .failed db

/-- `onIssueCreated` run to its end; `created` is the key Jira answers with, after the retries. -/
def onIssueCreated (cfg : Config) (env : Env) (issueId : Uuid) (created : Option String) (db : Db) : Db :=
  if env.read then db
  else match db.issues.findOne issueId with
    | none => db
    | some issue =>
      if cfg.jiraEnabled issue.platform = false then db
      else if issue.jiraIssueKey.any (fun key => key ≠ "") ∨ issue.jiraSyncStatus = .synced then db
      else if issue.jiraSyncStatus = .pending ∧ isPendingClaimStale env.now issue = false then db
      else if env.statement 0 then db
      else
        let claimed := update env.now issueId none .pending db
        match created with
        | none => markFailed env issueId claimed
        | some key =>
          if env.statement 1 then markFailed env issueId claimed
          else
            let recorded := update env.now issueId (some key) .synced claimed
            -- the attachment push stands in the same `try`
            if env.statement 3 then markFailed env issueId recorded else recorded

theorem onIssueCreated_preserves {P : Db → Prop}
    (hupdate : ∀ db now id key status, P db → P (update now id key status db)) (cfg : Config) (env : Env)
    (issueId : Uuid) (created : Option String) {db : Db} (h : P db) :
    P (onIssueCreated cfg env issueId created db) := by
  have hfailed : ∀ {db}, P db → P (markFailed env issueId db) := by
    intro db h
    unfold markFailed
    split
    · exact h
    · exact hupdate _ _ _ _ _ h
  have hclaimed := hupdate db env.now issueId none .pending h
  unfold onIssueCreated
  split
  · exact h
  · split
    · exact h
    · split
      · exact h
      · split
        · exact h
        · split
          · exact h
          · split
            · exact h
            · cases created with
              | none => exact hfailed hclaimed
              | some key =>
                have hrecorded := hupdate _ env.now issueId (some key) .synced hclaimed
                simp only
                split
                · exact hfailed hclaimed
                · split
                  · exact hfailed hrecorded
                  · exact hrecorded

end JiraListener

end Cimp
