import SaasBackend.Subscriptions.Services

open Calendar ReadCommitted

-- The plans which are created by the command `seed_plans`.
namespace SaasBackend.Seed

def free : Plan where
  id                 := 1
  slug               := PlanSlug.free
  requestQuota       := 1000
  rateLimitPerMinute := 60
  maxApiKeys         := 1
  durationDays       := 0
  features           := [("api_keys", .bool true), ("advanced_analytics", .bool false)]
  isActive           := true
  slug_nonempty      := by decide

def pro : Plan where
  id                 := 2
  slug               := PlanSlug.pro
  requestQuota       := 100000
  rateLimitPerMinute := 600
  maxApiKeys         := 10
  durationDays       := 30
  features           := [("api_keys", .bool true), ("advanced_analytics", .bool true)]
  isActive           := true
  slug_nonempty      := by decide

def enterprise : Plan where
  id                 := 3
  slug               := PlanSlug.enterprise
  requestQuota       := 0
  rateLimitPerMinute := 6000
  maxApiKeys         := 100
  durationDays       := 30
  features           := [("api_keys", .bool true), ("advanced_analytics", .bool true),
                         ("sso", .bool true), ("priority_support", .bool true)]
  isActive           := true
  slug_nonempty      := by decide

-- The database after the command was run with another quota of the free plan.
def databaseWith (quota : Nat) : Database :=
  { Database.empty with
    plans := ((Table.empty.put enterprise).put pro).put { free with requestQuota := quota } }

def database : Database :=
  databaseWith free.requestQuota

def user : User where
  id          := 1
  email       := "user@example.com"
  password    := ⟨"password"⟩
  firstName   := ""
  lastName    := ""
  role        := .customer
  isActive    := true
  isVerified  := true
  lastLogin   := none
  lastLoginAt := none

-- The subscription of the user to the free plan, whose quota is lowered to one request.
def subscription : LoadedSubscription where
  id         := 1
  userId     := 1
  planId     := 1
  status     := .active
  startedAt  := .midnight 739000
  expiresAt  := none
  canceledAt := none
  autoRenew  := false
  plan       := { free with requestQuota := 1 }

def quota : UsageQuota where
  id             := 1
  subscriptionId := 1
  periodStart    := .midnight 739000
  periodEnd      := .midnight 757262
  requestsUsed   := 0

def enrolled : Database :=
  ((enrollInFreePlan 1 ⟨.midnight 739000, 1, 1⟩).run <| databaseWith 1).2

end SaasBackend.Seed
