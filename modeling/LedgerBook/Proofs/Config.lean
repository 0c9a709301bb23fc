import LedgerBook.Proofs.Config.Environment
import LedgerBook.Proofs.Json.Path
/-!
Where the settings of a client come from. Each takes the value given for it, converted to its kind,
if this value counts, and else what its variable of the environment tells, or its default. Given
values do not count alike: a page size counts unless it is null, the others only if they are truthy.
-/
namespace LedgerBook.Config

/-- The times after which a client gives up: waiting for an answer, and for a connection. -/
inductive Timeout
  | request | connect
  deriving DecidableEq, Repr

namespace Timeout

def valueIn (config : Config) : Timeout → Binary64
  | request => config.requestTimeout
  | connect => config.connectTimeout

/-- The name under which a timeout is given. -/
def memberName : Timeout → Text
  | request => "request_timeout_s"
  | connect => "request_connect_timeout_s"

/-- The variable of the environment for a timeout. -/
def variableName : Timeout → Text
  | request => "SUI_GQL_REQUEST_TIMEOUT_S"
  | connect => "SUI_GQL_CONNECT_TIMEOUT_S"

def default : Timeout → Int
  | request => 60
  | connect => 10

end Timeout

/-- The settings of a client. -/
inductive Setting
  | endpoint | pageSize | timeout (which : Timeout) | retries
  deriving DecidableEq, Repr

/-- A text as an address: without blanks around it, and the default if nothing is left. -/
def addressOf (text : Text) : Text :=
  if (Text.strip text).isEmpty then defaultEndpoint else Text.strip text

namespace Setting

/-- What a setting holds. -/
abbrev Value : Setting → Type
  | endpoint => Text
  | pageSize => Option Int
  | timeout _ => Binary64
  | retries => Int

def valueIn (config : Config) : (setting : Setting) → setting.Value
  | endpoint => config.endpoint
  | pageSize => config.pageSize
  | timeout which => which.valueIn config
  | retries => config.retries

/-- The variable of the environment for a setting. -/
def variableName : Setting → Text
  | endpoint => "SUI_GQL_URL"
  | pageSize => "SUI_GQL_PAGE_SIZE"
  | timeout which => which.variableName
  | retries => "SUI_GQL_HTTP_RETRIES"

/-- The value that members give for a setting. An address has two names. -/
def given (members : Json.Members) : Setting → Json
  | endpoint => (members.get "endpoint").orElse (members.get "url")
  | pageSize => members.get "page_size"
  | timeout which => members.get which.memberName
  | retries => members.get "request_retries"

/-- Whether the value that members give for a setting counts. -/
def counts (members : Json.Members) : Setting → Bool
  | endpoint => (given members endpoint).isTruthy
  | pageSize => !(given members pageSize).isNull
  | timeout which => (given members (timeout which)).isTruthy
  | retries => (given members retries).isTruthy

/-- A value as one that a setting can hold. -/
def convert : (setting : Setting) → Json → Except Failure setting.Value
  | endpoint, value => .ok (addressOf value.text)
  | pageSize, value => value.toInt.map some
  | timeout _, value => value.toBinary64
  | retries, value => value.toInt

/-- What the environment tells for a setting, or the default. -/
def fallback (environment : Environment) : (setting : Setting) → Except Failure setting.Value
  | endpoint => .ok (addressOf ((environment endpoint.variableName).getD []))
  | pageSize => .ok (environment.positive? pageSize.variableName)
  | timeout which => Json.floatOfInt ((environment.positive? which.variableName).getD which.default)
  | retries => .ok ((environment.positive? retries.variableName).getD 0)

/-- What becomes of a setting: the value given for it if this one counts, else the fallback. -/
def resolve (environment : Environment) (members : Json.Members) (setting : Setting) :
    Except Failure setting.Value :=
  if setting.counts members then setting.convert (setting.given members)
  else setting.fallback environment

end Setting

open Setting

variable {environment other : Environment} {members others : Json.Members} {config : Config}
  {failure : Failure} {setting : Setting}

/-! ## The rule of each setting -/

theorem toMembers_obj (members : Json.Members) : (Json.obj members).toMembers = .ok members := by
  cases members with
  | nil => rfl
  | cons member rest => rfl

theorem addressOf_defaultEndpoint : addressOf defaultEndpoint = defaultEndpoint := by
  decide +kernel

theorem resolve_endpoint :
    resolve environment members .endpoint = .ok (endpointOf members environment) := by
  rw [resolve, counts, endpointOf, ← given, Json.orElse, Json.orElse]
  cases truthy : (given members .endpoint).isTruthy with
  | true =>
      rw [if_pos rfl, if_pos rfl, if_pos truthy]
      rfl
  | false =>
      rw [if_neg Bool.false_ne_true, if_neg Bool.false_ne_true, fallback, variableName]
      cases environment "SUI_GQL_URL" with
      | none => exact congrArg Except.ok addressOf_defaultEndpoint.symm
      | some text =>
          cases text with
          | nil => exact congrArg Except.ok addressOf_defaultEndpoint.symm
          | cons point rest => rfl

theorem resolve_pageSize :
    resolve environment members .pageSize = pageSizeOf members environment := by
  rw [resolve, counts, pageSizeOf, given]
  cases members.get "page_size" <;> rfl

theorem resolve_timeout (which : Timeout) :
    resolve environment members (.timeout which) =
      (Config.setting members environment which.memberName which.variableName
        which.default).toBinary64 := by
  rw [resolve, counts, given, Config.setting, Json.orElse]
  split <;> rfl

theorem resolve_retries :
    resolve environment members .retries =
      (Config.setting members environment "request_retries" "SUI_GQL_HTTP_RETRIES" 0).toInt := by
  rw [resolve, counts, given, Config.setting, Json.orElse]
  split <;> rfl

/-- The settings are resolved one after the other, each by its rule. -/
theorem load_obj :
    load environment (.obj members) = do
      let pageSize ← resolve environment members .pageSize
      let requestTimeout ← resolve environment members (.timeout .request)
      let connectTimeout ← resolve environment members (.timeout .connect)
      let retries ← resolve environment members .retries
      let endpoint ← resolve environment members .endpoint
      return ⟨endpoint, pageSize, requestTimeout, connectTimeout, retries⟩ := by
  rw [load, toMembers_obj, resolve_pageSize, resolve_timeout, resolve_timeout, resolve_retries,
    resolve_endpoint]
  rfl

/-- The settings are loaded exactly if each is resolved to the value it holds then. -/
theorem load_eq_ok_iff :
    load environment (.obj members) = .ok config ↔
      ∀ setting, resolve environment members setting = .ok (setting.valueIn config) := by
  rw [load_obj]
  simp only [bind_eq_ok]
  constructor
  · rintro ⟨pageSize, isPageSize, request, isRequest, connect, isConnect, retries, isRetries,
      endpoint, isEndpoint, ⟨⟩⟩ setting
    cases setting with
    | endpoint => exact isEndpoint
    | pageSize => exact isPageSize
    | timeout which =>
        cases which with
        | request => exact isRequest
        | connect => exact isConnect
    | retries => exact isRetries
  · intro resolves
    exact ⟨_, resolves .pageSize, _, resolves (.timeout .request), _, resolves (.timeout .connect),
      _, resolves .retries, _, resolves .endpoint, rfl⟩

theorem exists_of_load_eq_error (fails : load environment (.obj members) = .error failure) :
    ∃ setting, resolve environment members setting = .error failure := by
  rw [load_obj] at fails
  simp only [bind_eq_error] at fails
  rcases fails with fails | ⟨_, _, fails | ⟨_, _, fails | ⟨_, _, fails | ⟨_, _, fails | never⟩⟩⟩⟩
  · exact ⟨_, fails⟩
  · exact ⟨_, fails⟩
  · exact ⟨_, fails⟩
  · exact ⟨_, fails⟩
  · exact ⟨_, fails⟩
  · obtain ⟨_, _, ⟨⟩⟩ := never

theorem load_congr
    (agree : ∀ setting, resolve environment members setting = resolve other others setting) :
    load environment (.obj members) = load other (.obj others) := by
  rw [load_obj, load_obj]
  simp only [agree]

/-! ## What the environment tells -/

/-- Whether a setting is a timeout whose variable tells an integer for which there is no finite
number. -/
inductive Setting.Overflows (environment : Environment) : Setting → Prop
  | intro {which : Timeout} {number : Nat} :
      environment.Tells which.variableName number →
      Binary64.overflowBound ≤ number →
      Overflows environment (.timeout which)

theorem Timeout.default_pos (which : Timeout) : 0 < which.default := by
  cases which <;> decide

theorem Timeout.default_lt (which : Timeout) : which.default < Binary64.overflowBound := by
  have low : 2 ^ 6 ≤ Binary64.overflowBound := Binary64.two_pow_le_overflowBound (by decide)
  cases which with
  | request =>
      rw [default]
      omega
  | connect =>
      rw [default]
      omega

/-- Below the bound of overflow, a timeout is the number that stands for the integer its variable
tells, or for its default. -/
theorem exists_fallback_timeout {which : Timeout}
    (fits : ¬ Overflows environment (.timeout which)) :
    ∃ number : Nat, environment.TellsElse which.variableName which.default number ∧
      (Binary64.ofInt number).StandsFor number ∧
      fallback environment (.timeout which) = .ok (Binary64.ofInt number) := by
  have tells := Environment.tellsElse_iff.mpr
    (rfl : (environment.positive? which.variableName).getD which.default = _)
  rw [fallback]
  generalize (environment.positive? which.variableName).getD which.default = value at tells
  obtain ⟨number, rfl⟩ := Int.eq_ofNat_of_zero_le (tells.positive which.default_pos).le
  have positive : 0 < number := Int.natCast_pos.mp (tells.positive which.default_pos)
  have finite : number < Binary64.overflowBound := by
    rcases tells with told | ⟨_, same⟩
    · exact Nat.lt_of_not_le fun infinite => fits (.intro told infinite)
    · have small := which.default_lt
      rw [← same] at small
      exact Int.ofNat_lt.mp small
  exact ⟨number, tells, Binary64.standsFor_ofInt positive finite,
    (Json.floatOfInt_natCast positive).trans (if_pos finite)⟩

theorem fallback_of_overflows (overflows : setting.Overflows environment) :
    setting.fallback environment = .error .outOfRange := by
  obtain ⟨told, infinite⟩ := overflows
  rw [fallback, Environment.positive?_eq_some_iff.mpr told, Option.getD_some,
    Json.floatOfInt_natCast (Int.natCast_pos.mp told.1), if_neg (Nat.not_lt.mpr infinite)]

/-- The environment has a value for every setting but a timeout that is out of range. -/
theorem fallback_eq_error_iff :
    setting.fallback environment = .error failure ↔
      setting.Overflows environment ∧ failure = .outOfRange := by
  constructor
  · intro fails
    have overflows : setting.Overflows environment := by
      cases setting with
      | timeout which =>
          by_contra fits
          obtain ⟨number, _, _, gives⟩ := exists_fallback_timeout fits
          rw [gives] at fails
          cases fails
      | endpoint => cases fails
      | pageSize => cases fails
      | retries => cases fails
    rw [fallback_of_overflows overflows] at fails
    exact ⟨overflows, (Except.error.inj fails).symm⟩
  · rintro ⟨overflows, rfl⟩
    exact fallback_of_overflows overflows

/-- What the environment tells for a setting lies in its variable alone. -/
theorem fallback_congr
    (same : environment setting.variableName = other setting.variableName) :
    setting.fallback environment = setting.fallback other := by
  cases setting with
  | endpoint => rw [fallback, fallback, same]
  | pageSize => rw [fallback, fallback, Environment.positive?, Environment.positive?, same]
  | timeout which =>
      rw [variableName] at same
      rw [fallback, fallback, Environment.positive?, Environment.positive?, same]
  | retries => rw [fallback, fallback, Environment.positive?, Environment.positive?, same]

/-! ## Given values and the environment -/

/-- Two sources of settings agree on a setting: the value given for it counts in both and is the
same, or counts in neither and the variables are the same. -/
inductive Setting.Agrees (environment other : Environment) (members others : Json.Members)
    (setting : Setting) : Prop
  | given :
      setting.counts members = true →
      setting.counts others = true →
      setting.given members = setting.given others →
      Agrees environment other members others setting
  | told :
      setting.counts members = false →
      setting.counts others = false →
      environment setting.variableName = other setting.variableName →
      Agrees environment other members others setting

theorem Setting.Agrees.resolve_eq (agrees : setting.Agrees environment other members others) :
    setting.resolve environment members = setting.resolve other others := by
  cases agrees with
  | given counts also same => rw [resolve, resolve, if_pos counts, if_pos also, same]
  | told missing also same =>
      rw [resolve, resolve, if_neg (ne_true_of_eq_false missing),
        if_neg (ne_true_of_eq_false also), fallback_congr same]

/-- A given value that counts wins over the environment: its setting holds this value, converted,
and nothing is loaded if it cannot be converted. Loading fails for no other reason than a variable
out of range whose setting is not given. What is loaded depends on nothing but the values that count
and the variables of the other settings. -/
theorem given_values_win (environment : Environment) (members : Json.Members) :
    (∀ config, load environment (.obj members) = .ok config →
      ∀ setting : Setting, setting.counts members = true →
        setting.convert (setting.given members) = .ok (setting.valueIn config)) ∧
    (∀ failure, load environment (.obj members) = .error failure →
      ∃ setting : Setting,
        setting.counts members = true ∧
            setting.convert (setting.given members) = .error failure ∨
          setting.counts members = false ∧ setting.Overflows environment ∧
            failure = .outOfRange) ∧
    ∀ other others,
      (∀ setting : Setting, setting.Agrees environment other members others) →
        load environment (.obj members) = load other (.obj others) := by
  refine ⟨?_, ?_, ?_⟩
  · intro config loads setting counts
    have resolves := load_eq_ok_iff.mp loads setting
    rw [resolve, if_pos counts] at resolves
    exact resolves
  · intro failure fails
    obtain ⟨setting, cause⟩ := exists_of_load_eq_error fails
    rw [resolve] at cause
    split at cause
    next counts => exact ⟨setting, .inl ⟨counts, cause⟩⟩
    next missing =>
      exact ⟨setting, .inr ⟨eq_false_of_ne_true missing, fallback_eq_error_iff.mp cause⟩⟩
  · intro other others agree
    exact load_congr fun setting => (agree setting).resolve_eq

-- A number of retries that is zero does not count, a page size that is zero does.
example :
    (load (fun _ => some "3")
      (.obj [("request_retries", .int 0), ("page_size", .int 0)])).toOption.map
      (fun config => (config.retries, config.pageSize)) = some (3, some 0) := by
  decide +kernel

/-- Without members every setting falls back to the environment. -/
theorem resolve_nil : setting.resolve environment [] = setting.fallback environment := by
  rw [resolve]
  cases setting <;> rfl

theorem load_null : load environment .null = load environment (.obj []) :=
  rfl

theorem exists_overflows_of_load (fails : load environment (.obj []) = .error failure) :
    ∃ which : Timeout, (Setting.timeout which).Overflows environment ∧ failure = .outOfRange := by
  obtain ⟨setting, fails⟩ := exists_of_load_eq_error fails
  rw [resolve_nil] at fails
  obtain ⟨⟨told, infinite⟩, same⟩ := fallback_eq_error_iff.mp fails
  exact ⟨_, .intro told infinite, same⟩

/-- The settings that an environment tells when nothing is given in its place. -/
structure ToldBy (environment : Environment) (config : Config) : Prop where
  endpoint : config.endpoint = addressOf ((environment "SUI_GQL_URL").getD [])
  pageSize : ∀ number,
    config.pageSize = some number ↔ environment.Tells "SUI_GQL_PAGE_SIZE" number
  requestTimeout : ∃ number : Nat,
    environment.TellsElse "SUI_GQL_REQUEST_TIMEOUT_S" 60 number ∧
      config.requestTimeout.StandsFor number
  connectTimeout : ∃ number : Nat,
    environment.TellsElse "SUI_GQL_CONNECT_TIMEOUT_S" 10 number ∧
      config.connectTimeout.StandsFor number
  retries : environment.TellsElse "SUI_GQL_HTTP_RETRIES" 0 config.retries
  retries_nonneg : 0 ≤ config.retries

theorem toldBy_of_load (fits : ∀ which : Timeout, ¬ (Setting.timeout which).Overflows environment)
    (loads : load environment (.obj []) = .ok config) : ToldBy environment config := by
  have holds (setting : Setting) :
      setting.fallback environment = .ok (setting.valueIn config) := by
    rw [← resolve_nil]
    exact load_eq_ok_iff.mp loads setting
  have timeout (which : Timeout) : ∃ number : Nat,
      environment.TellsElse which.variableName which.default number ∧
        (which.valueIn config).StandsFor number := by
    obtain ⟨number, tells, stands, gives⟩ := exists_fallback_timeout (fits which)
    rw [Except.ok.inj (gives.symm.trans (holds (.timeout which)))] at stands
    exact ⟨number, tells, stands⟩
  have pageSize := Except.ok.inj (holds .pageSize)
  have retries := Environment.tellsElse_iff.mpr (Except.ok.inj (holds .retries))
  exact {
    endpoint := (Except.ok.inj (holds .endpoint)).symm
    pageSize := fun number => by
      rw [← Environment.positive?_eq_some_iff]
      exact iff_of_eq (congrArg (· = some number) pageSize.symm)
    requestTimeout := timeout .request
    connectTimeout := timeout .connect
    retries
    retries_nonneg := retries.nonneg le_rfl }

/-- Where nothing is given, nothing but a timeout out of range can break the settings: with such a
timeout none are loaded, and otherwise those that the environment tells. -/
theorem environment_decides (environment : Environment) :
    ((∃ which : Timeout, (Setting.timeout which).Overflows environment) →
      load environment .null = .error .outOfRange) ∧
    ((∀ which : Timeout, ¬ (Setting.timeout which).Overflows environment) →
      ∃ config, load environment .null = .ok config ∧ ToldBy environment config) := by
  rw [load_null]
  constructor
  · rintro ⟨which, overflows⟩
    cases loads : load environment (.obj []) with
    | ok config =>
        have resolves := load_eq_ok_iff.mp loads (.timeout which)
        rw [resolve_nil, fallback_of_overflows overflows] at resolves
        cases resolves
    | error failure =>
        obtain ⟨_, _, rfl⟩ := exists_overflows_of_load loads
        rfl
  · intro fits
    cases loads : load environment (.obj []) with
    | ok config => exact ⟨config, rfl, toldBy_of_load fits loads⟩
    | error failure =>
        obtain ⟨which, overflows, _⟩ := exists_overflows_of_load loads
        exact absurd overflows (fits which)

example :
    (load (fun name => if name == "SUI_GQL_PAGE_SIZE" then some " +4_0\u0663\n" else some "-7")
      .null).toOption =
      some ⟨"-7", some 403, Binary64.ofInt 60, Binary64.ofInt 10, 0⟩ := by
  decide +kernel

example :
    (load (fun _ => some (List.replicate 310 (CodePoint.char '9'))) .null).toOption = none := by
  decide +kernel

end LedgerBook.Config
