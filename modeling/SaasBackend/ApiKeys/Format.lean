import SaasBackend.ApiKeys.Lookup
import SaasBackend.Common.Base64

open Calendar ReadCommitted ReadCommitted.Service

namespace SaasBackend

-- `secrets.token_urlsafe(len(random))`, and `generate_secure_token(len(random))`
def tokenUrlsafe (random : List UInt8) : String :=
  .ofList <| Base64.encodeUnpadded random

variable {random random' : List UInt8}

theorem toList_tokenUrlsafe (random : List UInt8) :
    (tokenUrlsafe random).toList = Base64.encodeUnpadded random :=
  String.toList_ofList

theorem tokenUrlsafe_injective : Function.Injective tokenUrlsafe := by
  intro r r' h
  apply Base64.encodeUnpadded_injective
  rw [←toList_tokenUrlsafe, h, toList_tokenUrlsafe]

theorem length_tokenUrlsafe (random : List UInt8) :
    (tokenUrlsafe random).length = (random.length * 4 + 2) / 3 := by
  rw [←String.length_toList, toList_tokenUrlsafe, Base64.length_encodeUnpadded]

theorem isPrintable_of_alphabet (c : Char) (hc : c ∈ Base64.alphabet) :
    33 ≤ c.toNat ∧ c.toNat ≤ 126 := by
  have h : ∀ c ∈ Base64.alphabet, 33 ≤ c.toNat ∧ c.toNat ≤ 126 := by simp [Base64.alphabet]
  exact h c hc

section ApiKeys

theorem toList_generatePlaintextKey (token : String) :
    (generatePlaintextKey token).toList = keyPrefix.toList ++ token.toList :=
  String.toList_append

theorem generatePlaintextKey_injective : Function.Injective generatePlaintextKey := by
  intro t t' h
  have h := congrArg String.toList h
  rw [toList_generatePlaintextKey, toList_generatePlaintextKey] at h
  exact String.toList_inj.mp <| List.append_cancel_left h

theorem length_generatePlaintextKey (random : List UInt8) :
    (generatePlaintextKey <| tokenUrlsafe random).length = 8 + (random.length * 4 + 2) / 3 := by
  rw [generatePlaintextKey, String.length_append, length_tokenUrlsafe]
  rfl

-- The `_` of the prefix also occurs in tokens.
theorem generatePlaintextKey_subset (random : List UInt8) :
    ∀ c ∈ (generatePlaintextKey <| tokenUrlsafe random).toList, c ∈ Base64.alphabet := by
  have hp : ∀ c ∈ keyPrefix.toList, c ∈ Base64.alphabet := by simp [keyPrefix, Base64.alphabet]
  intro c hc
  rw [toList_generatePlaintextKey, toList_tokenUrlsafe] at hc
  cases List.mem_append.mp hc
  case inl hc => exact hp c hc
  case inr hc => exact Base64.encodeUnpadded_subset _ hc

theorem isPrintable_generatePlaintextKey (random : List UInt8) :
    IsPrintable (generatePlaintextKey <| tokenUrlsafe random) where
  nonempty h      := by
    have h := congrArg String.toList h
    rw [toList_generatePlaintextKey] at h
    cases h
  printable c hc  := isPrintable_of_alphabet c <| generatePlaintextKey_subset random c hc

-- A key which is sent in one of the two headers, where `X-API-Key` may hold blanks around it.
inductive Sends (p : String) (request : HttpRequest) : Prop
  | padded (value : String) (h : request.header APIKeyAuthentication.headerName = some value)
      (hs : Text.strip value = p)
  | authorization (keyword : String) (hn : request.header "HTTP_X_API_KEY" = none)
      (hk : keyword.toList.map Char.toLower = "api-key".toList)
      (h : request.header "HTTP_AUTHORIZATION" = some (keyword ++ " " ++ p))

theorem APIKeyAuthentication.extractKey_of_sends {p : String} {request : HttpRequest}
    (hp : IsPrintable p) (h : Sends p request) : extractKey request = .ok (some p) := by
  cases h
  case padded value h hs              =>
    have hv : value ≠ "" := by
      intro hv
      subst hv
      exact hp.nonempty <| hs.symm.trans <| by decide +kernel
    rw [extractKey, h]
    simp only [ne_eq, hv, not_false_eq_true, if_true, hs]
  case authorization keyword hn hk h  => exact extractKey_of_presents hp <| .authorization keyword hn hk h

variable {d d' : Database} {user : Uuid} {name : String} {i : Issuing} {issued : IssuedKey}

-- Of the keys that are accepted by then, a new one is the only one with its hash.
theorem eq_of_createApiKey (h : (createApiKey user name i).run d = (.ok issued, d')) {k : APIKey}
    (hk : k ∈ d'.apiKeys) (hh : k.keyHash = computeHash i.plaintext) : k = issued.apiKey := by
  have ⟨_, hi, ha, hd⟩ := createApiKey_run_eq_ok h
  subst hd
  cases Table.mem_put.mp hk
  case inl he => exact he
  case inr hk =>
    refine absurd ?_ <| Service.accepts_fresh ha k hk.left (.keyHash <| computeHash i.plaintext) ?_
    · exact List.mem_singleton.mpr <| congrArg Key.keyHash hh.symm
    · rw [hi]
      exact List.mem_singleton.mpr rfl

-- What is issued to a user is accepted from the user in either header, and nothing else that could
-- have been issued is accepted for the same key.
theorem issued_key_accepted (d d' : Database) (user : User) (name : String) (random : List UInt8)
    (id : Uuid) (issued : IssuedKey) (hu : user ∈ d.users) (ha : user.isActive)
    (h : (createApiKey user.id name ⟨tokenUrlsafe random, id⟩).run d = (.ok issued, d')) :
    (issued.plaintext.length = 8 + (random.length * 4 + 2) / 3 ∧
      ∀ c ∈ issued.plaintext.toList, c ∈ Base64.alphabet) ∧
    (∀ request now, Sends issued.plaintext request →
      ((APIKeyAuthentication.authenticate request now).run d').fst = .ok (some (user, issued.apiKey))) ∧
    ∀ random' ≠ random, ∀ request now u k,
      Sends (generatePlaintextKey <| tokenUrlsafe random') request →
      ((APIKeyAuthentication.authenticate request now).run d').fst = .ok (some (u, k)) →
      k ≠ issued.apiKey := by
  obtain ⟨_, hi, _, hd⟩ := createApiKey_run_eq_ok h
  have hp : issued.plaintext = generatePlaintextKey (tokenUrlsafe random) := by rw [hi]; rfl
  refine ⟨hp ▸ ⟨length_generatePlaintextKey random, generatePlaintextKey_subset random⟩, ?_, ?_⟩
  · intro request now hs
    have hpp : IsPrintable issued.plaintext := hp ▸ isPrintable_generatePlaintextKey random
    have hm : (issued.apiKey, user) ∈ APIKeyAuthentication.candidates d' (splitPrefix issued.plaintext) := by
      refine APIKeyAuthentication.mem_candidates.mpr ⟨?_, ?_, ?_, ?_, ?_⟩
      · rw [hd]
        exact Table.mem_put_self ..
      · rw [hi]; rfl
      · rw [hi]; rfl
      · rw [hd]
        exact hu
      · rw [hi]; rfl
    have hf : (APIKeyAuthentication.candidates d' (splitPrefix issued.plaintext)).find?
        (·.1.keyHash = computeHash issued.plaintext) = some (issued.apiKey, user) := by
      cases hf : (APIKeyAuthentication.candidates d' (splitPrefix issued.plaintext)).find?
        (·.1.keyHash = computeHash issued.plaintext)
      case none   =>
        refine (List.find?_eq_none.mp hf _ hm ?_).elim
        rw [hi]
        simp [newApiKey]
      case some c =>
        obtain ⟨k, u⟩ := c
        obtain ⟨hk, _, _, hu', hu''⟩ := APIKeyAuthentication.mem_candidates.mp <| List.mem_of_find?_eq_some hf
        have hh : k.keyHash = computeHash issued.plaintext := by simpa using List.find?_some hf
        have hk : k = issued.apiKey := eq_of_createApiKey h hk <| hh.trans <| by rw [hi]
        have hu : u = user := Table.eq_of_key hu' (hd ▸ hu) <| congrArg Key.user <| by
          rw [hu'', hk, hi]; rfl
        rw [hk, hu]
    rw [APIKeyAuthentication.authenticate_run (APIKeyAuthentication.extractKey_of_sends hpp hs) hpp.nonempty,
      run_bind, APIKeyAuthentication.compareCandidates_run, hf]
    simp only [APIKeyAuthentication.answerFor, ha, if_true]
    rfl
  · intro random' hr request now u k hs hk he
    obtain ⟨p, hp', _, hh, _⟩ := APIKeyAuthentication.authenticate_run_eq_ok (Prod.ext hk rfl)
    rw [APIKeyAuthentication.extractKey_of_sends (isPrintable_generatePlaintextKey random') hs] at hp'
    cases hp'
    have hh : computeHash (generatePlaintextKey <| tokenUrlsafe random') =
        computeHash (generatePlaintextKey <| tokenUrlsafe random) := by
      rw [←hh, he, hi]; rfl
    exact hr <| tokenUrlsafe_injective <| generatePlaintextKey_injective <|
      congrArg Sha256.preimage hh

section Example

def exampleRandom : List UInt8 :=
  .replicate 32 0xfb

theorem example_key_accepted :
    let result := (createApiKey 1 "ci" ⟨tokenUrlsafe exampleRandom, 1⟩).run KeyHistory.exampleAccounts
    let issued : IssuedKey :=
      ⟨generatePlaintextKey <| tokenUrlsafe exampleRandom, newApiKey 1 "ci" ⟨tokenUrlsafe exampleRandom, 1⟩⟩
    ∀ request now, Sends issued.plaintext request →
      ((APIKeyAuthentication.authenticate request now).run result.snd).fst =
        .ok (some (Seed.user, issued.apiKey)) :=
  (issued_key_accepted KeyHistory.exampleAccounts _ Seed.user "ci" exampleRandom 1
    ⟨generatePlaintextKey <| tokenUrlsafe exampleRandom, newApiKey 1 "ci" ⟨tokenUrlsafe exampleRandom, 1⟩⟩
    (by decide +kernel) (by decide +kernel) <| run_eq_ok <| by decide +kernel).right.left

end Example
end ApiKeys
end SaasBackend
