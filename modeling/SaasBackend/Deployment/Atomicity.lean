import SaasBackend.Deployment.Finality
import SaasBackend.ReadCommitted.Unitary

open Calendar ReadCommitted ReadCommitted.Service

namespace SaasBackend

open Service

section Unitary

variable {R α β : Type} [Entity R Key]

theorem create_unitary (r : Row) : (create r).Unitary :=
  Unitary.execute _

theorem save_unitary (table : Database → Table R) (row : R → Row) (k : Key) (f : R → R) :
    (save table row k f).Unitary := by
  refine Unitary.stmt fun d => ?_
  cases h : (table d).lookup k
  case none   => exact .inl <| by simp [assign, h]
  case some r => exact .inr ⟨(), rfl⟩

theorem ofExcept_bind_unitary {x : Except Exn α} {f : α → Service β} (h : ∀ a, (f a).Unitary) :
    (ofExcept x >>= f).Unitary := by
  cases x
  case error e  => exact Unitary.raise e
  case ok a     => exact h a

theorem select_bind_unitary {q : Database → α} {f : α → Service β} (h : ∀ a, (f a).Unitary) :
    (select q >>= f).Unitary :=
  (Reads.select q).unitary_bind h

theorem discard_unitary {s : Service α} (h : s.Unitary) : (discard s : Service Unit).Unitary :=
  h.map fun _ => ()

theorem verifyEmail_unitary (token : String) (now usedAt : Instant) : (verifyEmail token now usedAt).Unitary := by
  refine select_bind_unitary fun found => ?_
  split
  case h_1 => exact Unitary.raise _
  case h_2 =>
    split
    case isTrue   => exact Unitary.raise _
    case isFalse  => exact (Unitary.atomic _).map _

theorem changePassword_unitary (user : User) (currentPassword newPassword : String) :
    (changePassword user currentPassword newPassword).Unitary := by
  unfold changePassword
  split
  case isTrue   => exact Unitary.raise _
  case isFalse  => exact save_unitary ..

theorem revokeSession_unitary (user sessionId : Uuid) (revokedAt : Instant) :
    (revokeSession user sessionId revokedAt).Unitary := by
  refine select_bind_unitary fun session => ?_
  split
  case h_1 => exact Unitary.raise _
  case h_2 =>
    split
    case isTrue   => exact Unitary.raise _
    case isFalse  => exact save_unitary ..

theorem revokeApiKey_unitary (user keyId : Uuid) (revokedAt : Instant) :
    (revokeApiKey user keyId revokedAt).Unitary := by
  refine select_bind_unitary fun key => ?_
  split
  case h_1 => exact Unitary.raise _
  case h_2 =>
    split
    case isTrue   => exact Unitary.raise _
    case isFalse  => exact (save_unitary ..).map _

theorem compareCandidates_unitary (providedHash : Sha256) (now : Instant) (cs : List (APIKey × User)) :
    (APIKeyAuthentication.compareCandidates providedHash now cs).Unitary := by
  induction cs
  case nil          => exact Unitary.raise _
  case cons c cs hi =>
    unfold APIKeyAuthentication.compareCandidates
    split
    case isFalse  => exact hi
    case isTrue   =>
      split
      case isTrue   => exact Unitary.raise _
      case isFalse  => exact (Unitary.handle (Unitary.execute _) fun _ => Unitary.pure ()).map _

theorem authenticate_unitary (request : HttpRequest) (now : Instant) :
    (APIKeyAuthentication.authenticate request now).Unitary := by
  refine ofExcept_bind_unitary fun plaintext => ?_
  split
  case h_1 => exact Unitary.pure _
  case h_2 =>
    split
    case isTrue   => exact Unitary.pure _
    case isFalse  => exact select_bind_unitary fun cs => (compareCandidates_unitary ..).map _

end Unitary

-- The operations which have their whole effect at once. The others commit several times, or still have
-- something to do once they have committed, such as to hand over a message.
def Operation.isUnitary : Operation → Bool
  | register ..
  | verifyEmail ..
  | confirmPasswordReset ..
  | changePassword ..
  | updateProfile ..
  | revokeSession ..
  | authenticate ..
  | createApiKey ..
  | revokeApiKey ..
  | rotateApiKey ..
  | subscribe ..
  | cancel ..
  | logRequest ..         => true
  | _                     => false

theorem Operation.unitary (p : Platform) {o : Operation} (h : o.isUnitary) : (o.service p).Unitary := by
  cases o
  case register             => exact discard_unitary <| ofExcept_bind_unitary fun _ => Unitary.atomic _
  case verifyEmail          => exact discard_unitary <| verifyEmail_unitary ..
  case confirmPasswordReset =>
    exact discard_unitary <| ofExcept_bind_unitary fun _ => (Unitary.atomic _).map fun _ => success none _
  case changePassword       =>
    exact discard_unitary <| ofExcept_bind_unitary fun _ => (changePassword_unitary ..).map fun _ => success none _
  case updateProfile        => exact discard_unitary <| (save_unitary ..).map _
  case revokeSession        => exact revokeSession_unitary ..
  case authenticate         => exact discard_unitary <| authenticate_unitary ..
  case createApiKey         => exact discard_unitary <| Unitary.atomic _
  case revokeApiKey         => exact discard_unitary <| revokeApiKey_unitary ..
  case rotateApiKey         => exact discard_unitary <| Unitary.atomic _
  case subscribe            => exact discard_unitary <| Unitary.atomic _
  case cancel               => exact discard_unitary <| Unitary.atomic _
  case logRequest           => exact create_unitary _
  all_goals cases h

section Runs

variable {ι : Type} [Fintype ι] [DecidableEq ι]

-- At most one step of such an operation changes the committed tables. It is the last one, and the
-- operation ends with it as a success, so that there is no trace of one which fails.
theorem takes_effect_at_once (p : Platform) (d : Database) (os : ι → Operation) (i : ι)
    (hi : (os i).isUnitary) (as : List (Action ι Exn)) :
    let σ (as : List (Action ι Exn)) := (operating p d os).run as
    (∀ bs e, (σ (as ++ .go i :: bs)).Raised i e → (σ (as ++ [.go i])).db = (σ as).db) ∧
    ((σ (as ++ [.go i])).db ≠ (σ as).db → ∀ bs, (σ (as ++ .go i :: bs)).Returned i () ∧
      (σ (as ++ .go i :: bs ++ [.go i])).db = (σ (as ++ .go i :: bs)).db) := by
  intro σ
  have hu : ((σ as).session i).Unitary :=
    System.run_unitary (show ((operating p d os).session i).Unitary from (Operation.unitary p hi).program) as
  have hr : (σ (as ++ [.go i])).db ≠ (σ as).db → ∀ bs, (σ (as ++ .go i :: bs)).Returned i () := by
    intro hd bs
    simp only [σ, System.run_append, System.run_cons, System.run_nil] at hd ⊢
    obtain ⟨a, ha⟩ := System.returned_of_unitary hu hd
    exact ha.run bs
  constructor
  case left =>
    intro bs e he
    by_contra hd
    have ha := hr hd bs
    rw [System.Returned, he] at ha
    cases ha
  case right =>
    refine fun hd bs => ⟨hr hd bs, ?_⟩
    simpa only [σ, System.run_append, System.run_cons, System.run_nil] using (hr hd bs).step_db

section Example

-- Nothing is changed until the block is left.
theorem key_created_at_once :
    let σ (as : List (Action Bool Exn)) := (operating .ascii KeyHistory.exampleAccounts exampleOperations).run as
    (σ (.replicate 4 (.go false) ++ .go false :: [.go true])).Returned false () := by
  refine ((takes_effect_at_once .ascii KeyHistory.exampleAccounts exampleOperations false rfl
    (.replicate 4 (.go false))).right (fun h => ?_) [.go true]).left
  revert h
  refine mt (congrArg fun d => d.apiKeys.rows.length) ?_
  decide +kernel

end Example

end Runs
end SaasBackend
