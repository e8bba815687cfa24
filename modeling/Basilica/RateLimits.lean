import Basilica.Tallies
import Basilica.TokenBuckets

/-!
The rate limits of the API. A storage keeps a token bucket for each address and each API key; the handler of the router looks
a request up in one.
-/

namespace Basilica.Api

open AssocMaps TokenBuckets List

structure RateLimitConfig where
  defaultRequestsPerMinute : ℕ
  burstSize : ℕ
  perIpLimiting : Bool
  premiumRequestsPerMinute : ℕ

def RateLimitConfig.default : RateLimitConfig := ⟨60, 100, true, 600⟩

inductive RateLimitKey
  | ip (address : String)
  | apiKey (key : String)
deriving DecidableEq

structure Limiter where
  quota : Quota ℚ
  bucket : Bucket ℚ

/-- `Quota::per_minute`: as many calls at once as in a minute. -/
def perMinute (requests : ℕ) : Quota ℚ :=
  let requests := if requests = 0 then 60 else requests
  ⟨requests, requests⟩

def Limiter.direct (quota : Quota ℚ) (now : ℚ) : Limiter := ⟨quota, quota.full now⟩

def Limiter.check (now : ℚ) (l : Limiter) : Bool × Limiter :=
  ((l.quota.check now l.bucket).1, ⟨l.quota, (l.quota.check now l.bucket).2⟩)

structure RateLimitStorage where
  defaultLimiter : Limiter
  ipLimiters : AssocMap String Limiter
  apiKeyLimiters : AssocMap String Limiter
  config : RateLimitConfig

namespace RateLimitStorage

def new (config : RateLimitConfig) (now : ℚ) : RateLimitStorage where
  defaultLimiter := .direct (perMinute config.defaultRequestsPerMinute) now
  ipLimiters := .empty
  apiKeyLimiters := .empty
  config := config

def getIpLimiter (s : RateLimitStorage) (now : ℚ) (ip : String) : Limiter :=
  (s.ipLimiters.get? ip).getD (.direct (perMinute s.config.defaultRequestsPerMinute) now)

def requestsPerMinute (config : RateLimitConfig) (apiKey : String) : ℕ :=
  if apiKey.startsWith "sk_enterprise_" then 6000
  else if apiKey.startsWith "sk_premium_" || apiKey.startsWith "sk_live_" then config.premiumRequestsPerMinute
  else if apiKey.startsWith "sk_test_" then 300
  else config.defaultRequestsPerMinute

def getApiKeyLimiter (s : RateLimitStorage) (now : ℚ) (apiKey : String) : Limiter :=
  (s.apiKeyLimiters.get? apiKey).getD (.direct (perMinute (requestsPerMinute s.config apiKey)) now)

inductive ApiError
  | rateLimitExceeded
  | internal (message : String)
deriving DecidableEq

def answer (passes : Bool) : Except ApiError Unit := if passes then .ok () else .error .rateLimitExceeded

/-- The limiters are shared, so what a check takes stays taken. -/
def checkLimit (s : RateLimitStorage) (now : ℚ) (key : RateLimitKey) : Except ApiError Unit × RateLimitStorage :=
  match key with
  | .ip ip =>
    if s.config.perIpLimiting then
      let r := (s.getIpLimiter now ip).check now
      (answer r.1, { s with ipLimiters := s.ipLimiters.set ip r.2 })
    else
      let r := s.defaultLimiter.check now
      (answer r.1, { s with defaultLimiter := r.2 })
  | .apiKey apiKey =>
    let r := (s.getApiKeyLimiter now apiKey).check now
    (answer r.1, { s with apiKeyLimiters := s.apiKeyLimiters.set apiKey r.2 })

end RateLimitStorage

structure Request where
  time : ℚ
  address : String
  connectInfo : Option String
  apiKey : Option String

def Request.key (r : Request) : RateLimitKey :=
  match r.apiKey with
  | some apiKey => .apiKey apiKey
  | none => match r.connectInfo with
    | some ip => .ip ip
    | none => .ip "anonymous"

inductive HttpStatus
  | tooManyRequests
  | other (code : ℕ)
deriving DecidableEq

def rateLimitMiddleware (storage : RateLimitStorage) (r : Request) : Except HttpStatus Unit × RateLimitStorage :=
  match storage.checkLimit r.time r.key with
  | (.ok (), storage) => (.ok (), storage)
  | (.error _, storage) => (.error .tooManyRequests, storage)

/-- The handler makes a storage, and drops it at its end. -/
def rateLimitHandler (config : RateLimitConfig) (r : Request) : Except RateLimitStorage.ApiError Unit :=
  match (rateLimitMiddleware (.new config r.time) r).1 with
  | .ok () => .ok ()
  | .error .tooManyRequests => .error .rateLimitExceeded
  | .error (.other _) => .error (.internal "Rate limit check failed")

open Request

open RateLimitStorage

section Handler

variable (config : RateLimitConfig)

def passedOn (requests : List Request) : List Request :=
  requests.filter (fun r => rateLimitHandler config r = .ok ())

def Request.anonymous (address : String) (r : Request) : Bool := r.address = address ∧ r.apiKey = none

def Request.within (start span : ℚ) (r : Request) : Bool := start ≤ r.time ∧ r.time ≤ start + span

def Bounded (rate burst : ℚ) (requests : List Request) : Prop :=
  ∀ start span, 0 ≤ span → (requests.countP (Request.within start span) : ℚ) ≤ rate * span + burst

theorem one_le_perMinute (n : ℕ) : 1 ≤ (perMinute n).burst := by
  unfold perMinute
  dsimp only
  split_ifs with h
  · norm_num
  · exact_mod_cast Nat.one_le_iff_ne_zero.mpr h

theorem check_direct (n : ℕ) (now : ℚ) : ((Limiter.direct (perMinute n) now).check now).1 = true :=
  Quota.check_full_self (one_le_perMinute n) now

theorem checkLimit_new (now : ℚ) (key : RateLimitKey) :
    ((new config now).checkLimit now key).1 = .ok () := by
  cases key with
  | ip ip =>
    unfold checkLimit
    split_ifs
    · have hfresh : (new config now).getIpLimiter now ip = .direct (perMinute config.defaultRequestsPerMinute) now := rfl
      dsimp only
      rw [hfresh, check_direct]
      rfl
    · have hfresh : (new config now).defaultLimiter = .direct (perMinute config.defaultRequestsPerMinute) now := rfl
      dsimp only
      rw [hfresh, check_direct]
      rfl
  | apiKey apiKey =>
    have hfresh : (new config now).getApiKeyLimiter now apiKey =
        .direct (perMinute (requestsPerMinute config apiKey)) now := rfl
    unfold checkLimit
    dsimp only
    rw [hfresh, check_direct]
    rfl

theorem rateLimitHandler_ok (r : Request) : rateLimitHandler config r = .ok () := by
  have h := checkLimit_new config r.time r.key
  unfold rateLimitHandler rateLimitMiddleware
  cases hc : (new config r.time).checkLimit r.time r.key with
  | mk result storage =>
    rw [hc] at h
    subst h
    rfl

theorem passedOn_eq (requests : List Request) : passedOn config requests = requests := by
  refine filter_eq_self.mpr ?_
  intro r _
  exact decide_eq_true (rateLimitHandler_ok config r)

/-- Nothing is held back: what goes on keeps a bound only where what comes in does. -/
theorem passed_on_bounded_iff (config : RateLimitConfig) (burst : ℚ) (requests : List Request) (address : String) :
    Bounded (perMinute config.defaultRequestsPerMinute).rate burst ((passedOn config requests).filter (Request.anonymous address)) ↔
      Bounded (perMinute config.defaultRequestsPerMinute).rate burst (requests.filter (Request.anonymous address)) := by
  rw [passedOn_eq]

theorem burst_passed_on : ¬ Bounded (perMinute RateLimitConfig.default.defaultRequestsPerMinute).rate RateLimitConfig.default.burstSize
    ((passedOn .default (List.replicate 101 ⟨0, "203.0.113.7", some "203.0.113.7", none⟩)).filter (Request.anonymous "203.0.113.7")) := by
  intro h
  have hcount := h 0 0 (le_refl 0)
  rw [passedOn_eq, filter_replicate, if_pos (by decide), countP_replicate, if_pos (by simp [within])] at hcount
  norm_num [RateLimitConfig.default] at hcount

end Handler

section Kept

def passedKept : List Request → RateLimitStorage → List Request
  | [], _ => []
  | r :: l, s => match rateLimitMiddleware s r with
    | (.ok (), s) => r :: passedKept l s
    | (.error _, s) => passedKept l s

def quotaOf (config : RateLimitConfig) : RateLimitKey → Quota ℚ
  | .ip _ => perMinute config.defaultRequestsPerMinute
  | .apiKey apiKey => perMinute (requestsPerMinute config apiKey)

def kept (s : RateLimitStorage) : RateLimitKey → Option Limiter
  | .ip ip => s.ipLimiters.get? ip
  | .apiKey apiKey => s.apiKeyLimiters.get? apiKey

def limiterOf (s : RateLimitStorage) (now : ℚ) (key : RateLimitKey) : Limiter :=
  (kept s key).getD (.direct (quotaOf s.config key) now)

variable {s : RateLimitStorage} {requests : List Request} {t u : ℚ}

theorem quotaOf_nonneg (config : RateLimitConfig) (key : RateLimitKey) : 0 ≤ (quotaOf config key).rate ∧ 0 ≤ (quotaOf config key).burst := by
  cases key with
  | ip ip | apiKey apiKey => exact ⟨Nat.cast_nonneg _, Nat.cast_nonneg _⟩

theorem config_checkLimit (s : RateLimitStorage) (now : ℚ) (key : RateLimitKey) : (s.checkLimit now key).2.config = s.config := by
  cases key with
  | ip ip =>
    unfold checkLimit
    split_ifs <;> rfl
  | apiKey apiKey => rfl

structure Metered (s : RateLimitStorage) : Prop where
  perIp : s.config.perIpLimiting = true
  quota : ∀ key l, kept s key = some l → l.quota = quotaOf s.config key

namespace Metered

variable (h : Metered s)

include h

theorem limiterOf_quota (now : ℚ) (key : RateLimitKey) : (limiterOf s now key).quota = quotaOf s.config key := by
  unfold limiterOf
  cases hl : kept s key with
  | none => rfl
  | some l => exact h.quota key l hl

theorem answer_checkLimit (now : ℚ) (key : RateLimitKey) :
    (s.checkLimit now key).1 = answer ((limiterOf s now key).check now).1 := by
  cases key with
  | ip ip =>
    unfold checkLimit
    dsimp only
    rw [if_pos h.perIp]
    rfl
  | apiKey apiKey => rfl

theorem kept_checkLimit (now : ℚ) (key key' : RateLimitKey) : kept (s.checkLimit now key).2 key' =
      if key = key' then some ((limiterOf s now key').check now).2 else kept s key' := by
  cases key <;> cases key' <;> simp only [kept, checkLimit, if_pos h.perIp, AssocMap.get?_set, RateLimitKey.ip.injEq,
    RateLimitKey.apiKey.injEq, reduceCtorEq, ↓reduceIte]
  all_goals
    split_ifs with hkey
    · subst hkey
      rfl
    · rfl

theorem checkLimit (now : ℚ) (key : RateLimitKey) : Metered (s.checkLimit now key).2 := by
  refine ⟨by rw [config_checkLimit]; exact h.perIp, ?_⟩
  intro key' l hl
  rw [h.kept_checkLimit] at hl
  rw [config_checkLimit]
  split_ifs at hl
  · cases hl
    exact h.limiterOf_quota now key'
  · exact h.quota key' l hl

end Metered

def left (start span now : ℚ) (key : RateLimitKey) (s : RateLimitStorage) : ℚ :=
  (quotaOf s.config key).allowance start (start + span) now (limiterOf s now key).bucket

def counts (start span : ℚ) (key : RateLimitKey) (r : Request) : Bool := within start span r && decide (r.key = key)

section

variable (start span : ℚ) (key : RateLimitKey)

theorem left_anti (s : RateLimitStorage) (h : u ≤ t) : left start span t key s ≤ left start span u key s := by
  have hrate := (quotaOf_nonneg s.config key).1
  unfold left limiterOf
  cases kept s key with
  | none => exact Quota.allowance_le_full hrate h
  | some l => exact Quota.allowance_anti hrate h

theorem left_checkLimit (h : Metered s) (r : Request) :
    left start span r.time key (s.checkLimit r.time r.key).2 +
      (if (s.checkLimit r.time r.key).1 = .ok () ∧ counts start span key r then 1 else 0) ≤ left start span r.time key s := by
  unfold left
  rw [config_checkLimit, limiterOf, h.kept_checkLimit, config_checkLimit]
  by_cases hkey : r.key = key
  · subst hkey
    have hpaid := Quota.allowance_check (quotaOf_nonneg s.config r.key).1 start (start + span) r.time (limiterOf s r.time r.key).bucket
    rw [if_pos rfl, h.answer_checkLimit, Option.getD_some]
    unfold Limiter.check
    rw [h.limiterOf_quota]
    refine le_trans (add_le_add_right ?_ _) hpaid
    split_ifs with hc hpass
    · exact le_rfl
    · refine absurd ⟨?_, of_decide_eq_true (Bool.and_eq_true_iff.mp hc.2).1⟩ hpass
      by_contra hfalse
      rw [answer, if_neg hfalse] at hc
      cases hc.1
    · exact zero_le_one
    · exact le_rfl
  · rw [if_neg hkey, if_neg (fun hc => hkey (of_decide_eq_true (Bool.and_eq_true_iff.mp hc.2).2)), add_zero]
    rfl

theorem countP_passedKept_le (h : Metered s) (hl : (u :: requests.map time).Pairwise (· ≤ ·)) :
    ((passedKept requests s).countP (counts start span key) : ℚ) ≤ left start span u key s := by
  induction requests generalizing s u with
  | nil => exact le_max_left 0 _
  | cons r requests ih =>
    obtain ⟨hfirst, hrest⟩ := pairwise_cons.mp hl
    have hind := ih (h.checkLimit r.time r.key) hrest
    have hstep := left_checkLimit start span key h r
    have hwait := left_anti start span key s (hfirst r.time mem_cons_self)
    have hcount : ((passedKept (r :: requests) s).countP (counts start span key) : ℚ) =
        (passedKept requests (s.checkLimit r.time r.key).2).countP (counts start span key) +
          (if (s.checkLimit r.time r.key).1 = .ok () ∧ counts start span key r then 1 else 0) := by
      rw [passedKept, rateLimitMiddleware]
      cases hc : s.checkLimit r.time r.key with
      | mk result s' =>
        cases result with
        | ok x =>
          rw [countP_cons]
          simp
        | error e => simp
    linarith

end

theorem passedKept_bounded (config : RateLimitConfig) (hper : config.perIpLimiting = true) (now : ℚ) (requests : List Request)
    (hl : (now :: requests.map time).Pairwise (· ≤ ·)) (key : RateLimitKey) :
    Bounded (quotaOf config key).rate (quotaOf config key).burst
      ((passedKept requests (.new config now)).filter (fun r => r.key = key)) := by
  intro start span hspan
  obtain ⟨hrate, hburst⟩ := quotaOf_nonneg config key
  have hnew : Metered (.new config now) := ⟨hper, fun key l hl => by cases key <;> cases hl⟩
  have hcount := countP_passedKept_le start span key hnew hl
  have hleft : left start span now key (.new config now) ≤
      (quotaOf config key).burst + (quotaOf config key).rate * (start + span - start) :=
    Quota.allowance_le hrate hburst (by linarith)
  rw [countP_filter]
  unfold counts at hcount
  rw [add_sub_cancel_left] at hleft
  linarith

def twoPerMinute : RateLimitConfig := ⟨2, 100, true, 600⟩

def fromOneAddress : List Request := [0, 0, 0, 1 / 2].map (fun time => ⟨time, "203.0.113.7", some "203.0.113.7", none⟩)

theorem third_request_refused :
    ((passedKept fromOneAddress (.new twoPerMinute 0)).filter (fun r => r.key = .ip "203.0.113.7")).map time = [0, 0, 1 / 2] ∧
      Bounded (quotaOf twoPerMinute (.ip "203.0.113.7")).rate (quotaOf twoPerMinute (.ip "203.0.113.7")).burst
        ((passedKept fromOneAddress (.new twoPerMinute 0)).filter (fun r => r.key = .ip "203.0.113.7")) := by
  refine ⟨by decide +kernel, passedKept_bounded twoPerMinute rfl 0 _ ?_ _⟩
  norm_num [fromOneAddress]

end Kept

end Basilica.Api
