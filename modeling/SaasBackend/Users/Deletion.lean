import SaasBackend.Database

open Calendar ReadCommitted

namespace SaasBackend

-- A request stays in the log without its user, and without the key it was made with.
def RequestLog.orphaned (user : Uuid) (keys : List Uuid) (l : RequestLog) : RequestLog :=
  { l with
    userId   := if l.userId = some user then none else l.userId
    apiKeyId := if l.apiKeyId.any (· ∈ keys) then none else l.apiKeyId }

def keysOf (d : Database) (user : Uuid) : List Uuid :=
  (d.apiKeys.rows.filter (·.userId = user)).map (·.id)

def subscriptionsOf (d : Database) (user : Uuid) : List Uuid :=
  (d.subscriptions.rows.filter (·.userId = user)).map (·.id)

-- The deletion of a user, with the rows of other tables which refer to it. The tables of the token
-- blacklist belong to a package, and are left aside.
def deleteUser (d : Database) (user : Uuid) : Database :=
  { d with
    users              := d.users.filter (·.id ≠ user)
    subscriptions      := d.subscriptions.filter (·.userId ≠ user)
    quotas             := d.quotas.filter (·.subscriptionId ∉ subscriptionsOf d user)
    verificationTokens := d.verificationTokens.filter (·.userId ≠ user)
    resetTokens        := d.resetTokens.filter (·.userId ≠ user)
    sessions           := d.sessions.filter (·.userId ≠ user)
    apiKeys            := d.apiKeys.filter (·.userId ≠ user)
    requestLogs        := d.requestLogs.map (·.orphaned user <| keysOf d user) fun _ => rfl
    dailyUsage         := d.dailyUsage.filter (·.userId ≠ user) }

end SaasBackend
