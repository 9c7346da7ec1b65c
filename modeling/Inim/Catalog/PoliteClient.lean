import Mathlib.Algebra.GroupWithZero.Nat
import Inim.Lib.Guards
/-!
# The polite client (`catalog/access.rs`)

| here | there |
| --- | --- |
| `AccessPolicy`, `AccessPolicy.validate` | `access.rs:53-113` |
| `FetchOutcome`, `StopReason`, `ClientError` | `:128-180` |
| `PoliteClient.new`, `setBudget`, `send` | `:260-315`, `send_get` and `send_post` at `:324`, `:345` |
| `fetchLoop`, `PoliteClient.fetchWith` | `fetch_with` (`:457-555`), for `fetch` and `fetch_post` |
| `acquireInflight`, `releaseInflight`  | `RateLimiter` (`:1028-1040`) |

"The client is budget-bounded": its budget is what `set_budget` says, and before that `usize::MAX`;
`policy.max_requests` is not read. "Retries consumed by the most recent completed fetch" are recorded
by two of the ways out of the loop, 304 and 404, and by no other (`fetchWith_lastRetries_iff`). The
HTTP library follows redirects by itself, and each is a request that no budget is charged for.

A server is the sequence of its replies to the attempts of a fetch. Metrics, which nothing reads back,
and everything about real time (pacing, the lengths of the pauses) are left out; a pause is recorded by
what it comes from.
-/

namespace Inim

open Lib

structure AccessPolicy where
  maxConcurrency : Nat
  /-- `requests_per_second` is positive and finite. -/
  rateOk : Bool
  burst : Nat
  maxRequests : Nat
  maxRetries : Nat
  backoffBaseMs : Nat
  backoffMaxMs : Nat
deriving DecidableEq, Repr

def AccessPolicy.conservative : AccessPolicy where
  maxConcurrency := 5
  rateOk := true
  burst := 2
  maxRequests := 100
  maxRetries := 3
  backoffBaseMs := 500
  backoffMaxMs := 30000

def AccessPolicy.validate (p : AccessPolicy) : Except String Unit := do
  if p.maxConcurrency = 0 then throw "max_concurrency must be >= 1"
  if !p.rateOk then throw "requests_per_second must be positive and finite"
  if p.burst = 0 then throw "burst must be >= 1"
  if p.maxRequests = 0 then throw "max_requests must be >= 1 (an unbounded crawl is not allowed)"
  if p.backoffBaseMs = 0 then throw "backoff_base_ms must be >= 1"
  return ()

structure FetchedBody where
  body : String
  status : Nat
  contentType : Option String
  etag : Option String
  lastModified : Option String
deriving DecidableEq, Repr

inductive FetchOutcome where
  | ok (body : FetchedBody)
  | notModified
  | notFound
  | forbidden
  | unauthorized
deriving DecidableEq, Repr

inductive StopReason where
  | budgetExhausted
  | forbidden
  | authenticationRequired
  | repeatedRateLimited
deriving DecidableEq, Repr

inductive ClientError where
  | stop (reason : StopReason)
  | tooManyRetries (detail : String)
  | unexpectedStatus (status : Nat)
  | transport (detail : String)
deriving DecidableEq, Repr

/-! ## Replies -/

structure HttpResponse where
  status : Nat
  contentType : Option String
  etag : Option String
  lastModified : Option String
  /-- `Retry-After`, if there is one that parses. -/
  retryAfter : Option Nat
  body : Except String String

/-- What `send` returns, after the redirects the library follows. -/
structure HttpReply where
  redirects : Nat
  result : Except String HttpResponse

def HttpReply.status (r : HttpReply) : Option Nat := (r.result.toOption).map (·.status)

/-- A reply that is asked for again. -/
def HttpReply.retryable (r : HttpReply) : Bool :=
  r.status.any fun s => s = 429 ∨ s = 503 ∨ s = 500 ∨ s = 502 ∨ s = 504

/-- A reply after which the retries are recorded. -/
def HttpReply.recorded (r : HttpReply) : Bool := r.status.any fun s => s = 304 ∨ s = 404

/-! ## The client -/

structure PoliteClient where
  policy : AccessPolicy
  requestsMade : Nat
  budgetRemaining : Nat
  inflight : Nat
  lastRetries : Nat
deriving DecidableEq, Repr

namespace PoliteClient

/-- `built` is what building the HTTP client returns. -/
def new (built : Except String Unit) (policy : AccessPolicy) : Except String PoliteClient := do
  policy.validate
  built.mapError ("cannot build HTTP client: " ++ ·)
  return {
    policy := policy
    requestsMade := 0
    budgetRemaining := 2 ^ 64 - 1
    inflight := 0
    lastRetries := 0 }

def setBudget (c : PoliteClient) (budget : Nat) : PoliteClient := { c with budgetRemaining := budget }

def acquireInflight (c : PoliteClient) : Except String PoliteClient :=
  if c.inflight ≥ c.policy.maxConcurrency then
    .error ("in-flight cap " ++ toString c.policy.maxConcurrency ++ " reached")
  else .ok { c with inflight := c.inflight + 1 }

def releaseInflight (c : PoliteClient) : PoliteClient := { c with inflight := c.inflight - 1 }

/-- `saturating_sub`. -/
def send (c : PoliteClient) : PoliteClient :=
  { c with requestsMade := c.requestsMade + 1, budgetRemaining := c.budgetRemaining - 1 }

end PoliteClient

/-- A sleep before a retry. -/
inductive Pause where
  | retryAfter (delay : Nat)
  | backoff (attempt baseMs maxMs : Nat)
deriving DecidableEq, Repr

/-- A fetch: its result, and what it sent, in its own count and on the wire. -/
structure FetchRun where
  client : PoliteClient
  result : Except ClientError FetchOutcome
  sent : Nat
  wire : Nat
  pauses : List Pause

def FetchRun.ended (client : PoliteClient) (result : Except ClientError FetchOutcome) : FetchRun :=
  ⟨client, result, 0, 0, []⟩

/-- One request more, before all others. -/
def FetchRun.after (reply : HttpReply) (r : FetchRun) : FetchRun :=
  { r with sent := r.sent + 1, wire := r.wire + 1 + reply.redirects }

def bodyOf (r : HttpResponse) : Except ClientError FetchedBody := do
  let body ← r.body.mapError fun e => .transport ("cannot read response body: " ++ e)
  return ⟨body, r.status, r.contentType, r.etag, r.lastModified⟩

/-- The retry of a response: with no attempt left, `spent` is the error. -/
def retry (c : PoliteClient) (attempt : Nat) (r : HttpResponse) (spent : ClientError) :
    Option (PoliteClient → FetchRun) → FetchRun
  | none => .ended c (.error spent)
  | some again =>
    let pause := match r.retryAfter with
      | some d => .retryAfter d
      | none => .backoff attempt c.policy.backoffBaseMs c.policy.backoffMaxMs
    let run := again c
    { run with pauses := pause :: run.pauses }

/-- What a response leads to. -/
def onResponse (c : PoliteClient) (attempt : Nat) (r : HttpResponse)
    (again : Option (PoliteClient → FetchRun)) : FetchRun :=
  if r.status = 200 then .ended c ((bodyOf r).map .ok)
  else if r.status = 304 then .ended { c with lastRetries := attempt } (.ok .notModified)
  else if r.status = 404 then .ended { c with lastRetries := attempt } (.ok .notFound)
  else if r.status = 401 then .ended c (.error (.stop .authenticationRequired))
  else if r.status = 403 then .ended c (.error (.stop .forbidden))
  else if r.status = 429 then retry c attempt r (.stop .repeatedRateLimited) again
  else if r.status = 503 ∨ r.status = 500 ∨ r.status = 502 ∨ r.status = 504 then
    retry c attempt r (.tooManyRetries ("status " ++ toString r.status ++ " after "
      ++ toString c.policy.maxRetries ++ " retries")) again
  else .ended c (.error (.unexpectedStatus r.status))

/-- The body of the loop; `again` is its next round, if `attempt` is below `max_retries`. -/
def fetchRound (reply : HttpReply) (attempt : Nat) (again : Option (PoliteClient → FetchRun))
    (c : PoliteClient) : FetchRun :=
  if c.budgetRemaining = 0 then .ended c (.error (.stop .budgetExhausted))
  else
    match c.acquireInflight with
    | .error e => .ended c (.error (.transport e))
    | .ok c =>
      let c := c.send.releaseInflight
      match reply.result with
      | .error e => .after reply (.ended c (.error (.transport e)))
      | .ok r => .after reply (onResponse c attempt r again)

/-- `left` is `max_retries - attempt`. -/
def fetchLoop (replies : Nat → HttpReply) : Nat → Nat → PoliteClient → FetchRun
  | 0, attempt => fetchRound (replies attempt) attempt none
  | left + 1, attempt =>
    fetchRound (replies attempt) attempt (some (fetchLoop replies left (attempt + 1)))

def PoliteClient.fetchWith (c : PoliteClient) (replies : Nat → HttpReply) : FetchRun :=
  fetchLoop replies c.policy.maxRetries 0 c

/-! ## Runs -/

inductive ClientCall where
  | setBudget (budget : Nat)
  | fetch (replies : Nat → HttpReply)

/-- The fetches of a run. -/
def runCalls : PoliteClient → List ClientCall → List FetchRun
  | _, [] => []
  | c, .setBudget budget :: calls => runCalls (c.setBudget budget) calls
  | c, .fetch replies :: calls => c.fetchWith replies :: runCalls (c.fetchWith replies).client calls

/-- What the client promises: few requests in a fetch, few in all, and the retries on record. -/
def Polite (policy : AccessPolicy) (runs : List FetchRun) : Prop :=
  (∀ r ∈ runs, r.wire ≤ policy.maxRetries + 1 ∧ r.client.lastRetries = r.sent - 1) ∧
    (runs.map (·.wire)).sum ≤ policy.maxRequests

/-! ## One fetch -/

/-- How many replies from `attempt` on are asked for again, at most `left`. -/
def retryStreak (replies : Nat → HttpReply) : Nat → Nat → Nat
  | 0, _ => 0
  | left + 1, attempt =>
    if (replies attempt).retryable then retryStreak replies left (attempt + 1) + 1 else 0

theorem retryStreak_le (replies : Nat → HttpReply) (left attempt : Nat) :
    retryStreak replies left attempt ≤ left := by
  induction left generalizing attempt with
  | zero => exact Nat.le_refl 0
  | succ left ih =>
    have := ih (attempt + 1)
    rw [retryStreak]
    split <;> omega

theorem HttpReply.not_recorded_of_retryable {r : HttpReply} (h : r.retryable = true) :
    r.recorded = false := by
  unfold HttpReply.retryable HttpReply.recorded at *
  cases hs : r.status with
  | none => rfl
  | some s =>
    rw [hs] at h
    simp only [Option.any_some, decide_eq_true_eq, decide_eq_false_iff_not] at h ⊢
    omega

/-- The client after a request. -/
theorem acquire_send_release {c : PoliteClient} (h : c.inflight < c.policy.maxConcurrency) :
    ∃ c', c.acquireInflight = .ok c' ∧ c'.send.releaseInflight = c.send := by
  refine ⟨_, if_neg (Nat.not_le.2 h), ?_⟩
  simp [PoliteClient.send, PoliteClient.releaseInflight]

/-- One round sends one request. Then the reply is asked for again, or it ends the fetch; only the
replies that record it leave `last_retries` changed. -/
theorem fetchRound_cases {reply : HttpReply} {attempt : Nat}
    {again : Option (PoliteClient → FetchRun)} {c : PoliteClient} (hbudget : c.budgetRemaining ≠ 0)
    (hcap : c.inflight < c.policy.maxConcurrency) :
    (reply.retryable = true ∧ ∃ r spent, fetchRound reply attempt again c =
      .after reply (retry c.send attempt r spent again)) ∨
    (reply.retryable = false ∧ ∃ result, fetchRound reply attempt again c = .after reply (.ended
      { c.send with lastRetries := if reply.recorded then attempt else c.lastRetries } result)) := by
  obtain ⟨c', hacquire, hsend⟩ := acquire_send_release hcap
  unfold fetchRound
  rw [if_neg hbudget, hacquire]
  dsimp only
  rw [hsend]
  cases hresult : reply.result with
  | error e =>
    have hstatus : reply.status = none := by rw [HttpReply.status, hresult]; rfl
    refine Or.inr ⟨by rw [HttpReply.retryable, hstatus]; rfl, .error (.transport e), ?_⟩
    rw [HttpReply.recorded, hstatus]
    rfl
  | ok r =>
    have hstatus : reply.status = some r.status := by rw [HttpReply.status, hresult]; rfl
    rw [HttpReply.retryable, HttpReply.recorded, hstatus]
    simp only [Option.any_some, decide_eq_true_eq, decide_eq_false_iff_not]
    unfold onResponse
    by_cases hretry : r.status = 429 ∨ r.status = 503 ∨ r.status = 500 ∨ r.status = 502 ∨ r.status = 504
    · refine Or.inl ⟨hretry, r, ?_⟩
      rw [if_neg (by omega), if_neg (by omega), if_neg (by omega), if_neg (by omega),
        if_neg (by omega)]
      split
      · exact ⟨_, rfl⟩
      · rw [if_pos (by omega)]
        exact ⟨_, rfl⟩
    · refine Or.inr ⟨hretry, ?_⟩
      by_cases hrecorded : r.status = 304 ∨ r.status = 404
      · rw [if_pos hrecorded, if_neg (by omega)]
        split
        · exact ⟨_, rfl⟩
        · rw [if_pos (by omega)]
          exact ⟨_, rfl⟩
      · rw [if_neg hrecorded, if_neg (show ¬r.status = 304 by omega),
          if_neg (show ¬r.status = 404 by omega), if_neg (show ¬r.status = 429 by omega),
          if_neg (show ¬(r.status = 503 ∨ r.status = 500 ∨ r.status = 502 ∨ r.status = 504) by omega)]
        split
        · exact ⟨_, rfl⟩
        · split
          · exact ⟨_, rfl⟩
          · split <;> exact ⟨_, rfl⟩

/-- What a loop does: it sends one request more than it gets retryable replies, while the budget
lasts. -/
structure LoopSpec (replies : Nat → HttpReply) (left attempt : Nat) (c : PoliteClient)
    (r : FetchRun) : Prop where
  sent : r.sent = min c.budgetRemaining (retryStreak replies left attempt + 1)
  client : r.client = { c with
    requestsMade := c.requestsMade + r.sent
    budgetRemaining := c.budgetRemaining - r.sent
    lastRetries :=
      if retryStreak replies left attempt < c.budgetRemaining ∧
          (replies (attempt + retryStreak replies left attempt)).recorded = true then
        attempt + retryStreak replies left attempt
      else c.lastRetries }
  wire : (∀ i ≤ retryStreak replies left attempt, (replies (attempt + i)).redirects = 0) →
    r.wire = r.sent

theorem loopSpec_exhausted {replies : Nat → HttpReply} {left attempt : Nat} {c : PoliteClient}
    (h : c.budgetRemaining = 0) : LoopSpec replies left attempt c (fetchLoop replies left attempt c) := by
  have hrun : fetchLoop replies left attempt c = .ended c (.error (.stop .budgetExhausted)) := by
    cases left <;> exact if_pos h
  rw [hrun]
  refine ⟨by simp [FetchRun.ended, h], ?_, fun _ => rfl⟩
  rw [if_neg (by omega)]
  rfl

/-- A reply that ends the fetch. -/
theorem loopSpec_ended {replies : Nat → HttpReply} {left attempt : Nat} {c : PoliteClient}
    {result : Except ClientError FetchOutcome} (hbudget : c.budgetRemaining ≠ 0)
    (hstreak : retryStreak replies left attempt = 0) :
    LoopSpec replies left attempt c (.after (replies attempt) (.ended { c.send with
      lastRetries := if (replies attempt).recorded then attempt else c.lastRetries } result)) := by
  have hpos : 0 < c.budgetRemaining := Nat.pos_of_ne_zero hbudget
  refine ⟨?_, ?_, fun hdirect => ?_⟩
  · rw [hstreak]
    simp only [FetchRun.after, FetchRun.ended]
    omega
  · rw [hstreak]
    simp [FetchRun.after, FetchRun.ended, PoliteClient.send, hpos]
  · have hzero := hdirect 0 (Nat.zero_le _)
    simpa [FetchRun.after, FetchRun.ended] using hzero

/-- A reply that is asked for again, and the rest of the loop. -/
theorem loopSpec_retry {replies : Nat → HttpReply} {left attempt : Nat} {c : PoliteClient}
    {r : FetchRun} {pauses : List Pause} (hbudget : c.budgetRemaining ≠ 0)
    (hretry : (replies attempt).retryable = true) (h : LoopSpec replies left (attempt + 1) c.send r) :
    LoopSpec replies (left + 1) attempt c (.after (replies attempt) { r with pauses := pauses }) := by
  have hpos : 0 < c.budgetRemaining := Nat.pos_of_ne_zero hbudget
  have hstreak : retryStreak replies (left + 1) attempt = retryStreak replies left (attempt + 1) + 1 := by
    rw [retryStreak, if_pos hretry]
  have hsent : r.sent = min (c.budgetRemaining - 1) (retryStreak replies left (attempt + 1) + 1) := h.sent
  refine ⟨?_, ?_, fun hdirect => ?_⟩
  · rw [hstreak]
    simp only [FetchRun.after]
    omega
  · rw [hstreak]
    have hlt : retryStreak replies left (attempt + 1) < c.budgetRemaining - 1 ↔
        retryStreak replies left (attempt + 1) + 1 < c.budgetRemaining := by omega
    have hat : attempt + 1 + retryStreak replies left (attempt + 1) =
        attempt + (retryStreak replies left (attempt + 1) + 1) := by omega
    simp only [FetchRun.after, h.client, PoliteClient.send, hlt, hat, PoliteClient.mk.injEq, true_and,
      and_true]
    omega
  · have hzero := hdirect 0 (Nat.zero_le _)
    have hrest := h.wire fun i hi => by
      have := hdirect (i + 1) (by omega)
      rwa [show attempt + (i + 1) = attempt + 1 + i by omega] at this
    simp only [FetchRun.after, hrest]
    simpa using hzero

theorem fetchLoop_spec (replies : Nat → HttpReply) (left attempt : Nat) (c : PoliteClient)
    (hcap : c.inflight < c.policy.maxConcurrency) :
    LoopSpec replies left attempt c (fetchLoop replies left attempt c) := by
  induction left generalizing attempt c with
  | zero =>
    by_cases hbudget : c.budgetRemaining = 0
    · exact loopSpec_exhausted hbudget
    · rcases @fetchRound_cases (replies attempt) attempt none c hbudget hcap with
        ⟨hretry, r, spent, hrun⟩ | ⟨-, result, hrun⟩
      · -- no attempt is left
        have hlast := @loopSpec_ended replies 0 attempt c (.error spent) hbudget rfl
        rw [HttpReply.not_recorded_of_retryable hretry] at hlast
        rw [fetchLoop, hrun]
        exact hlast
      · rw [fetchLoop, hrun]
        exact loopSpec_ended hbudget rfl
  | succ left ih =>
    by_cases hbudget : c.budgetRemaining = 0
    · exact loopSpec_exhausted hbudget
    · rcases @fetchRound_cases (replies attempt) attempt (some (fetchLoop replies left (attempt + 1))) c
        hbudget hcap with ⟨hretry, r, spent, hrun⟩ | ⟨hend, result, hrun⟩
      · rw [fetchLoop, hrun]
        exact loopSpec_retry hbudget hretry (ih (attempt + 1) c.send hcap)
      · rw [fetchLoop, hrun]
        exact loopSpec_ended hbudget (by rw [retryStreak, hend]; rfl)

/-- A body is that of a 200. -/
theorem fetchRound_status {reply : HttpReply} {attempt : Nat}
    {again : Option (PoliteClient → FetchRun)} {c : PoliteClient} {body : FetchedBody}
    (hagain : ∀ f ∈ again, ∀ c, (f c).result = .ok (.ok body) → body.status = 200)
    (h : (fetchRound reply attempt again c).result = .ok (.ok body)) : body.status = 200 := by
  have hretry (c : PoliteClient) (r : HttpResponse) (spent : ClientError)
      (h : (retry c attempt r spent again).result = .ok (.ok body)) : body.status = 200 := by
    cases again with
    | none => cases h
    | some f => exact hagain f rfl c h
  unfold fetchRound at h
  split at h
  · cases h
  split at h
  · cases h
  dsimp only at h
  split at h
  · cases h
  next r _ =>
  change (onResponse _ attempt r again).result = _ at h
  unfold onResponse at h
  split at h
  · next hstatus =>
    unfold bodyOf at h
    cases hbody : r.body with
    | error e =>
      rw [hbody] at h
      cases h
    | ok text =>
      rw [hbody] at h
      cases h
      exact hstatus
  iterate 4
    split at h
    · cases h
  split at h
  · exact hretry _ r _ h
  split at h
  · exact hretry _ r _ h
  · cases h

theorem fetchLoop_status {replies : Nat → HttpReply} {left attempt : Nat} {c : PoliteClient}
    {body : FetchedBody} (h : (fetchLoop replies left attempt c).result = .ok (.ok body)) :
    body.status = 200 := by
  induction left generalizing attempt c with
  | zero => exact fetchRound_status (by simp) h
  | succ left ih =>
    refine fetchRound_status (fun f hf c hc => ?_) h
    cases hf
    exact ih hc

section Fetch
variable {c : PoliteClient} {replies : Nat → HttpReply}

theorem PoliteClient.fetchWith_spec (c : PoliteClient) (replies : Nat → HttpReply)
    (hcap : c.inflight < c.policy.maxConcurrency) :
    LoopSpec replies c.policy.maxRetries 0 c (c.fetchWith replies) :=
  fetchLoop_spec replies _ 0 c hcap

/-- The number of replies a fetch gets that are asked for again, while there are attempts. -/
def PoliteClient.streak (c : PoliteClient) (replies : Nat → HttpReply) : Nat :=
  retryStreak replies c.policy.maxRetries 0

/-- The fetch gets to a 304 or a 404, or has as many retries as are on record already. -/
def RetriesRecorded (c : PoliteClient) (replies : Nat → HttpReply) : Prop :=
  c.streak replies < c.budgetRemaining ∧ (replies (c.streak replies)).recorded = true ∨
    c.lastRetries = min c.budgetRemaining (c.streak replies + 1) - 1

/-- **Bug**: the retries are on record after a fetch that ends with 304 or 404; after any other, success
included, the number is the old one. -/
theorem fetchWith_lastRetries_iff (hcap : c.inflight < c.policy.maxConcurrency) :
    (c.fetchWith replies).client.lastRetries = (c.fetchWith replies).sent - 1 ↔
      RetriesRecorded c replies := by
  have h := c.fetchWith_spec replies hcap
  have hsent : (c.fetchWith replies).sent = min c.budgetRemaining (c.streak replies + 1) := h.sent
  have hlast : (c.fetchWith replies).client.lastRetries =
      if c.streak replies < c.budgetRemaining ∧ (replies (c.streak replies)).recorded = true then
        c.streak replies
      else c.lastRetries := by
    rw [h.client]
    simp only [Nat.zero_add]
    rfl
  rw [hlast, hsent, RetriesRecorded]
  split
  · next hrec =>
    refine iff_of_true ?_ (Or.inl hrec)
    omega
  · next hrec => exact (or_iff_right hrec).symm

/-- A fetch sends at most one request more than it may retry. -/
theorem fetchWith_sent_le (hcap : c.inflight < c.policy.maxConcurrency) :
    (c.fetchWith replies).sent ≤ c.policy.maxRetries + 1 ∧
      (c.fetchWith replies).sent ≤ c.budgetRemaining := by
  have hsent := (c.fetchWith_spec replies hcap).sent
  have hle := retryStreak_le replies c.policy.maxRetries 0
  omega

end Fetch

/-! ## All fetches -/

/-- A fetch that keeps the promises: no reply it gets was redirected, what the budget and the retries
let it send fits in what is left of the policy's limit, and the retries are recorded. -/
structure FetchPolite (c : PoliteClient) (replies : Nat → HttpReply) : Prop where
  direct : ∀ i ≤ c.streak replies, (replies i).redirects = 0
  budgeted : c.requestsMade + min c.budgetRemaining (c.policy.maxRetries + 1) ≤ c.policy.maxRequests
  recorded : RetriesRecorded c replies

/-- Every fetch of the calls does, from the state it starts in. -/
def CallsPolite : PoliteClient → List ClientCall → Prop
  | _, [] => True
  | c, .setBudget budget :: calls => CallsPolite (c.setBudget budget) calls
  | c, .fetch replies :: calls =>
    FetchPolite c replies ∧ CallsPolite (c.fetchWith replies).client calls

/-- What stays as it was made. -/
structure ClientOf (policy : AccessPolicy) (c : PoliteClient) : Prop where
  policy_eq : c.policy = policy
  idle : c.inflight < policy.maxConcurrency
  made_le : c.requestsMade ≤ policy.maxRequests

theorem ClientOf.fetchWith {policy : AccessPolicy} {c : PoliteClient} {replies : Nat → HttpReply}
    (h : ClientOf policy c) (hpolite : FetchPolite c replies) :
    ClientOf policy (c.fetchWith replies).client := by
  obtain ⟨rfl, hidle, hmade⟩ := h
  have hspec := c.fetchWith_spec replies hidle
  obtain ⟨hretries, hleft⟩ := @fetchWith_sent_le c replies hidle
  have hbudget := hpolite.budgeted
  rw [hspec.client]
  exact ⟨rfl, hidle, by dsimp only; omega⟩

/-- A run from a client in use. -/
theorem polite_runCalls {policy : AccessPolicy} {c : PoliteClient} {calls : List ClientCall}
    (h : ClientOf policy c) (hcalls : CallsPolite c calls) :
    (∀ r ∈ runCalls c calls,
      r.wire ≤ policy.maxRetries + 1 ∧ r.client.lastRetries = r.sent - 1) ∧
    c.requestsMade + ((runCalls c calls).map (·.wire)).sum ≤ policy.maxRequests := by
  induction calls generalizing c with
  | nil => exact ⟨by simp [runCalls], by simpa [runCalls] using h.made_le⟩
  | cons call calls ih =>
    cases call with
    | setBudget budget => exact ih ⟨h.policy_eq, h.idle, h.made_le⟩ hcalls
    | fetch replies =>
      obtain ⟨hpolite, hcalls⟩ := hcalls
      obtain ⟨hrest, hsum⟩ := ih (h.fetchWith hpolite) hcalls
      obtain ⟨rfl, hidle, -⟩ := h
      have hspec := c.fetchWith_spec replies hidle
      have hwire : (c.fetchWith replies).wire = (c.fetchWith replies).sent :=
        hspec.wire fun i hi => by simpa using hpolite.direct i hi
      have hmade : (c.fetchWith replies).client.requestsMade =
          c.requestsMade + (c.fetchWith replies).sent := by rw [hspec.client]
      refine ⟨fun r hr => ?_, ?_⟩
      · rcases List.mem_cons.1 hr with rfl | hr
        · rw [hwire]
          exact ⟨(fetchWith_sent_le hidle).1, (fetchWith_lastRetries_iff hidle).2 hpolite.recorded⟩
        · exact hrest r hr
      · rw [runCalls, List.map_cons, List.sum_cons, hwire]
        omega

theorem validate_ok_concurrency {policy : AccessPolicy} {u : Unit} (h : policy.validate = .ok u) :
    0 < policy.maxConcurrency := by
  unfold AccessPolicy.validate at h
  obtain ⟨hpos, -⟩ := guard_ok h
  exact Nat.pos_of_ne_zero hpos

/-- **Any run of a new client** whose fetches are redirected nowhere, budgeted within the limit of the
policy and put on record. -/
theorem polite_of_callsPolite {built : Except String Unit} {policy : AccessPolicy} {c : PoliteClient}
    (hnew : PoliteClient.new built policy = .ok c) {calls : List ClientCall}
    (hcalls : CallsPolite c calls) : Polite policy (runCalls c calls) := by
  obtain ⟨u, hvalid, hnew⟩ := bind_ok hnew
  obtain ⟨-, -, hnew⟩ := bind_ok hnew
  cases hnew
  obtain ⟨hall, hsum⟩ := polite_runCalls
    ⟨rfl, validate_ok_concurrency hvalid, Nat.zero_le _⟩ hcalls
  exact ⟨hall, by simpa using hsum⟩

namespace AccessSample

def policy (maxRequests : Nat) : AccessPolicy :=
  { AccessPolicy.conservative with maxRequests := maxRequests }

def fresh (maxRequests : Nat) : PoliteClient := ⟨policy maxRequests, 0, 2 ^ 64 - 1, 0, 0⟩

theorem new_fresh : PoliteClient.new (.ok ()) (policy 10) = .ok (fresh 10) := rfl

def reply (status redirects : Nat) : HttpReply :=
  ⟨redirects, .ok ⟨status, none, none, none, none, .ok "[]"⟩⟩

/-- Two pages that are there, and no budget set. -/
def twoPages : List ClientCall := [.fetch fun _ => reply 200 0, .fetch fun _ => reply 200 0]

/-- Unavailable once, then there. -/
def slowPage : List ClientCall :=
  [.setBudget 10, .fetch fun i => if i = 0 then reply 503 0 else reply 200 0]

/-- A page at the end of five redirects. -/
def movedPage : List ClientCall := [.setBudget 10, .fetch fun _ => reply 200 5]

/-- The limit of the policy is not kept without a budget, a retry is not recorded, and the redirects of
one fetch are more requests than its retries. -/
theorem client_not_polite :
    PoliteClient.new (.ok ()) (policy 1) = .ok (fresh 1) ∧
    ((runCalls (fresh 1) twoPages).map (·.wire)).sum = 2 ∧
      ¬Polite (policy 1) (runCalls (fresh 1) twoPages) ∧
    PoliteClient.new (.ok ()) (policy 10) = .ok (fresh 10) ∧
    (runCalls (fresh 10) slowPage).map (fun r => (r.sent, r.client.lastRetries)) = [(2, 0)] ∧
      ¬Polite (policy 10) (runCalls (fresh 10) slowPage) ∧
    (runCalls (fresh 10) movedPage).map (·.wire) = [6] ∧
      ¬Polite (policy 10) (runCalls (fresh 10) movedPage) := by
  refine ⟨rfl, rfl, fun h => absurd h.2 (by decide), rfl, rfl, fun h => ?_, rfl, fun h => ?_⟩
  · exact absurd (h.1 _ List.mem_cons_self).2 (by decide)
  · exact absurd (h.1 _ List.mem_cons_self).1 (by decide)

/-- Two pages that have not changed, without a budget and with one. -/
theorem polite_notModified :
    Polite (policy 10) (runCalls (fresh 10)
      [.fetch fun _ => reply 304 0, .setBudget 6, .fetch fun _ => reply 304 0]) := by
  have hdirect : ∀ i : Nat, ((fun _ => reply 304 0) i).redirects = 0 := fun _ => rfl
  refine polite_of_callsPolite new_fresh ⟨?_, ?_, trivial⟩
  · exact ⟨fun i _ => hdirect i, by decide, Or.inl ⟨by decide, rfl⟩⟩
  · exact ⟨fun i _ => hdirect i, by decide, Or.inl ⟨by decide, rfl⟩⟩

end AccessSample

end Inim
