import MktSim.Api.Users

set_option autoImplicit false

namespace MktSim

structure AuthnClaim where
  sub : Uuid
  exp : UInt64
  roles : Roles
deriving DecidableEq

inductive Outcome (α : Type) where
  | success (value : α)
  | error (status : Status)
  | panicked
deriving DecidableEq

def Outcome.andThen {α β : Type} (outcome : Outcome α) (next : α → Outcome β) : Outcome β :=
  match outcome with
  | .success value => next value
  | .error status => .error status
  | .panicked => .panicked

-- `jwt::decode` under a secret, and the parser of identifiers.
structure Parsers where
  decode : String → String → Option AuthnClaim
  uuid : String → Option Uuid

-- What the guards read: the configured secret, the first Authorization header, and the
-- segment of the path behind `/accounts`, which is not validated yet.
structure GuardRequest where
  secret : Option String
  authorization : Option String
  accountId : String
deriving DecidableEq

def stripPrefix (text pre : String) : Option String := (text.toList.dropPrefix? pre.toList).map String.ofList

def bearer : String := "Bearer "

def jwtSecretKey (request : GuardRequest) : Outcome String :=
  match request.secret with
  | some secret => .success secret
  | none => .error .internalServerError

def Parsers.authnClaim (parsers : Parsers) (request : GuardRequest) : Outcome AuthnClaim :=
  (jwtSecretKey request).andThen fun secret =>
    match request.authorization.bind (stripPrefix · bearer) with
    | some token =>
        match parsers.decode secret token with
        | some claim => .success claim
        | none => .error .unauthorized
    | none => .error .unauthorized

def Parsers.roleCheck (parsers : Parsers) (flags : Int64) (request : GuardRequest) : Outcome AuthnClaim :=
  (parsers.authnClaim request).andThen fun claim =>
    if claim.roles.contains (.fromBitsTruncate flags) then .success claim else .error .forbidden

def Parsers.userCheck (parsers : Parsers) : GuardRequest → Outcome AuthnClaim := parsers.roleCheck 0

def Parsers.adminCheck (parsers : Parsers) : GuardRequest → Outcome AuthnClaim := parsers.roleCheck Roles.ADMIN.bits

-- A path segment that is no identifier is unwrapped all the same.
def Parsers.userIdCheck (parsers : Parsers) (request : GuardRequest) : Outcome AuthnClaim :=
  match parsers.userCheck request with
  | .success claim =>
      match parsers.uuid request.accountId with
      | none => .panicked
      | some accountId => if claim.sub = accountId then .success claim else parsers.adminCheck request
  | outcome => outcome

def Parsers.Presents (parsers : Parsers) (request : GuardRequest) (claim : AuthnClaim) : Prop :=
  ∃ secret token, request.secret = some secret ∧ request.authorization = some (bearer ++ token) ∧
    parsers.decode secret token = some claim

def Parsers.Entitled (parsers : Parsers) (request : GuardRequest) : Prop :=
  ∃ claim, parsers.Presents request claim ∧
    (parsers.uuid request.accountId = some claim.sub ∨ claim.roles.contains .ADMIN = true)

structure Closed (parsers : Parsers) (request : GuardRequest) : Prop where
  finishes : parsers.userIdCheck request ≠ .panicked
  admits : (∃ claim, parsers.userIdCheck request = .success claim) ↔ parsers.Entitled request
  unauthenticated : (∀ claim, ¬ parsers.Presents request claim) → parsers.userIdCheck request = .error .unauthorized
  rejects : ¬ parsers.Entitled request → ∃ status, parsers.userIdCheck request = .error status

theorem strip_prefix_iff (text pre rest : String) : stripPrefix text pre = some rest ↔ text = pre ++ rest := by
  have chars : text = pre ++ rest ↔ text.toList = pre.toList ++ rest.toList := by
    rw [← String.toList_append, String.toList_inj]
  rw [stripPrefix, Option.map_eq_some_iff, chars]
  constructor
  · rintro ⟨_, stripped, rfl⟩
    obtain ⟨front, whole, same⟩ := List.dropPrefix?_eq_some_iff.mp stripped
    rw [String.toList_ofList, ← eq_of_beq same]
    exact whole
  · intro whole
    exact ⟨rest.toList, List.dropPrefix?_eq_some_iff.mpr ⟨_, whole, BEq.rfl⟩, String.ofList_toList⟩

section Guards

variable {parsers : Parsers} {request : GuardRequest}

theorem authn_claim_presents {claim : AuthnClaim} (presents : parsers.Presents request claim) :
    parsers.authnClaim request = .success claim := by
  obtain ⟨secret, token, configured, header, decoded⟩ := presents
  have stripped : stripPrefix (bearer ++ token) bearer = some token := (strip_prefix_iff _ _ _).mpr rfl
  simp only [Parsers.authnClaim, jwtSecretKey, configured, Outcome.andThen, header, Option.bind_some, stripped, decoded]

theorem authn_claim_unauthorized {secret : String} (configured : request.secret = some secret)
    (absent : ∀ claim, ¬ parsers.Presents request claim) : parsers.authnClaim request = .error .unauthorized := by
  simp only [Parsers.authnClaim, jwtSecretKey, configured, Outcome.andThen]
  cases found : request.authorization.bind (stripPrefix · bearer) with
  | none => rfl
  | some token =>
      obtain ⟨header, present, stripped⟩ := Option.bind_eq_some_iff.mp found
      cases decoded : parsers.decode secret token with
      | none => simp only [decoded]
      | some claim =>
          rw [(strip_prefix_iff _ _ _).mp stripped] at present
          exact absurd ⟨secret, token, configured, present, decoded⟩ (absent claim)

theorem presents_unique {a b : AuthnClaim} (first : parsers.Presents request a) (second : parsers.Presents request b) :
    a = b := by
  have same := authn_claim_presents first
  rw [authn_claim_presents second] at same
  cases same
  rfl

theorem user_check_claim : parsers.userCheck request = parsers.authnClaim request := by
  have anyone : ∀ claim : AuthnClaim, claim.roles.contains (.fromBitsTruncate 0) = true :=
    fun claim => contains_empty claim.roles
  rw [Parsers.userCheck, Parsers.roleCheck]
  cases parsers.authnClaim request with
  | success claim => exact if_pos (anyone claim)
  | error status => rfl
  | panicked => rfl

theorem admin_check_presents {claim : AuthnClaim} (presents : parsers.Presents request claim) :
    parsers.adminCheck request =
      if claim.roles.contains .ADMIN = true then .success claim else .error .forbidden := by
  rw [Parsers.adminCheck, Parsers.roleCheck, authn_claim_presents presents]
  rfl

theorem user_id_check_presents {claim : AuthnClaim} (presents : parsers.Presents request claim) :
    parsers.userIdCheck request =
      match parsers.uuid request.accountId with
      | none => .panicked
      | some accountId =>
          if claim.sub = accountId then .success claim
          else if claim.roles.contains .ADMIN = true then .success claim else .error .forbidden := by
  rw [Parsers.userIdCheck, user_check_claim, authn_claim_presents presents, admin_check_presents presents]

theorem user_id_check_absent {secret : String} (configured : request.secret = some secret)
    (absent : ∀ claim, ¬ parsers.Presents request claim) : parsers.userIdCheck request = .error .unauthorized := by
  rw [Parsers.userIdCheck, user_check_claim, authn_claim_unauthorized configured absent]

theorem closed_presents {claim : AuthnClaim} {accountId : Uuid} (presents : parsers.Presents request claim)
    (parsed : parsers.uuid request.accountId = some accountId) : Closed parsers request := by
  have answer := user_id_check_presents presents
  rw [parsed] at answer
  simp only at answer
  have entitled : parsers.Entitled request ↔ claim.sub = accountId ∨ claim.roles.contains .ADMIN = true := by
    constructor
    · rintro ⟨other, presented, allowed⟩
      obtain rfl := presents_unique presented presents
      rw [parsed] at allowed
      exact allowed.imp_left fun same => (Option.some.inj same).symm
    · intro allowed
      refine ⟨claim, presents, allowed.imp_left fun same => ?_⟩
      rw [parsed, same]
  by_cases allowed : claim.sub = accountId ∨ claim.roles.contains .ADMIN = true
  · have admitted : parsers.userIdCheck request = .success claim := by
      rw [answer]
      by_cases owner : claim.sub = accountId
      · exact if_pos owner
      · rw [if_neg owner]
        exact if_pos (allowed.resolve_left owner)
    constructor
    · rw [admitted]
      intro panics
      cases panics
    · exact iff_of_true ⟨claim, admitted⟩ (entitled.mpr allowed)
    · exact fun absent => absurd presents (absent claim)
    · exact fun refused => absurd (entitled.mpr allowed) refused
  · have refused : parsers.userIdCheck request = .error .forbidden := by
      rw [answer, if_neg fun owner => allowed (.inl owner), if_neg fun admin => allowed (.inr admin)]
    constructor
    · rw [refused]
      intro panics
      cases panics
    · rw [refused]
      refine iff_of_false ?_ fun may => allowed (entitled.mp may)
      rintro ⟨_, admitted⟩
      cases admitted
    · exact fun absent => absurd presents (absent claim)
    · exact fun _ => ⟨.forbidden, refused⟩

theorem closed_absent {secret : String} (configured : request.secret = some secret)
    (absent : ∀ claim, ¬ parsers.Presents request claim) : Closed parsers request := by
  have answer := user_id_check_absent configured absent
  constructor
  · rw [answer]
    intro panics
    cases panics
  · rw [answer]
    refine iff_of_false ?_ ?_
    · rintro ⟨_, admitted⟩
      cases admitted
    · rintro ⟨claim, presents, _⟩
      exact absent claim presents
  · exact fun _ => answer
  · exact fun _ => ⟨.unauthorized, answer⟩

theorem unparsed_panics {claim : AuthnClaim} (presents : parsers.Presents request claim)
    (unparsed : parsers.uuid request.accountId = none) : parsers.userIdCheck request = .panicked := by
  rw [user_id_check_presents presents, unparsed]

/-- The guard does its work exactly when there is a secret and, behind a valid token, the path names an account. -/
theorem closed_iff (parsers : Parsers) (request : GuardRequest) :
    Closed parsers request ↔ request.secret ≠ none ∧
      ((∃ claim, parsers.Presents request claim) → parsers.uuid request.accountId ≠ none) := by
  constructor
  · intro closed
    constructor
    · intro unconfigured
      have absent : ∀ claim, ¬ parsers.Presents request claim := by
        rintro claim ⟨secret, token, configured, _⟩
        rw [unconfigured] at configured
        cases configured
      have answer := closed.unauthenticated absent
      simp only [Parsers.userIdCheck, user_check_claim, Parsers.authnClaim, jwtSecretKey, unconfigured, Outcome.andThen] at answer
      cases answer
    · rintro ⟨claim, presents⟩ unparsed
      exact closed.finishes (unparsed_panics presents unparsed)
  · rintro ⟨configured, parses⟩
    obtain ⟨secret, configured⟩ := Option.ne_none_iff_exists'.mp configured
    by_cases presented : ∃ claim, parsers.Presents request claim
    · obtain ⟨accountId, parsed⟩ := Option.ne_none_iff_exists'.mp (parses presented)
      obtain ⟨claim, presents⟩ := presented
      exact closed_presents presents parsed
    · exact closed_absent configured fun claim presents => presented ⟨claim, presents⟩

end Guards

def localParsers : Parsers where
  decode secret token := if secret = "secret" ∧ token = "token" then some ⟨⟨1⟩, 1717200000, .empty⟩ else none
  uuid text := if text = "00000000-0000-0000-0000-000000000001" then some ⟨1⟩ else none

def textAccountId : GuardRequest := ⟨some "secret", some (bearer ++ "token"), "me"⟩

theorem text_account_id_panics : ¬ ∀ (parsers : Parsers) (request : GuardRequest), request.secret ≠ none →
    Closed parsers request := by
  intro claimed
  have closed := claimed localParsers textAccountId (Option.some_ne_none _)
  have presents : localParsers.Presents textAccountId ⟨⟨1⟩, 1717200000, .empty⟩ :=
    ⟨"secret", "token", rfl, rfl, by decide⟩
  exact closed.finishes (unparsed_panics presents (by decide))

end MktSim
