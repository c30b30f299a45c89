import NcxTunnel.JsonText
import NcxTunnel.Protocol

/-!
# Messages of the gateway

`http/model.h`: the services that a client asks its gateway for, and their way to
JSON and back.  A member function that throws leaves what it has assigned so far.
-/

namespace NcxTunnel

/-- The bytes of a string in the source. -/
def bytes (s : String) : Bytes := s.toUTF8.data.toList

/-- What the functions throw. -/
inductive ModelError where
  | json (e : Json.Error)
  | jsonException (message : Bytes)
deriving Repr, DecidableEq

def ModelError.what : ModelError → Bytes
  | json e => e.what
  | jsonException m => m

/-- `catch (const nlohmann::json::exception& e)` around a function. -/
def ModelError.rethrow (message : String) : ModelError → ModelError
  | json e => jsonException (bytes message ++ e.what)
  | jsonException m => jsonException m

/-- A function on a member of `σ`. -/
abbrev Member (σ α : Type) := EStateM ModelError σ α

namespace Member

variable {σ α : Type}

def rethrowing (message : String) (f : Member σ α) : Member σ α := fun s =>
  match f s with
  | .ok a s => .ok a s
  | .error e s => .error (e.rethrow message) s

/-- Checks one after the other; the first that fails throws its text. -/
def requireAll : List (Bool × String) → Member σ Unit
  | [] => pure ()
  | (c, message) :: checks =>
      if c then requireAll checks else throw (.jsonException (bytes message))

def ofJson (x : Except Json.Error α) : Member σ α :=
  match x with
  | .ok a => pure a
  | .error e => throw (.json e)

theorem requireAll_of_forall {checks : List (Bool × String)} (h : ∀ c ∈ checks, c.1 = true) (s : σ) :
    requireAll checks s = .ok () s := by
  induction checks with
  | nil => rfl
  | cons c checks ih =>
    rw [List.forall_mem_cons] at h
    rw [requireAll, if_pos h.1, ih h.2]

theorem requireAll_of_not_forall {checks : List (Bool × String)} (h : ¬∀ c ∈ checks, c.1 = true)
    (s : σ) : ∃ message, requireAll checks s = .error (.jsonException message) s := by
  induction checks with
  | nil => exact absurd (List.forall_mem_nil _) h
  | cons c checks ih =>
    rw [List.forall_mem_cons] at h
    rw [requireAll]
    by_cases hc : c.1 = true
    · rw [if_pos hc]
      exact ih fun hall => h ⟨hc, hall⟩
    · rw [if_neg hc]
      exact ⟨bytes c.2, rfl⟩

theorem bind_ok {β : Type} {x : Member σ α} {f : α → Member σ β} {s s' : σ} {a : α}
    (h : x s = .ok a s') : (x >>= f) s = f a s' := by
  change EStateM.bind x f s = _
  rw [EStateM.bind, h]

theorem bind_error {β : Type} {x : Member σ α} {f : α → Member σ β} {s s' : σ} {e : ModelError}
    (h : x s = .error e s') : (x >>= f) s = .error e s' := by
  change EStateM.bind x f s = _
  rw [EStateM.bind, h]

theorem rethrowing_ok {message : String} {f : Member σ α} {s s' : σ} {a : α}
    (h : f s = .ok a s') : rethrowing message f s = .ok a s' := by
  rw [rethrowing, h]

theorem rethrowing_error {message : String} {f : Member σ α} {s s' : σ} {m : Bytes}
    (h : f s = .error (.jsonException m) s') :
    rethrowing message f s = .error (.jsonException m) s' := by
  rw [rethrowing, h]
  rfl

/-- The call comes to its end, or throws a `JsonException`, and leaves this state. -/
def Ends (f : Member σ Unit) (s : σ) (returns : Bool) (s' : σ) : Prop :=
  if returns then f s = .ok () s' else ∃ message, f s = .error (.jsonException message) s'

theorem ends_true {f : Member σ Unit} {s s' : σ} : Ends f s true s' ↔ f s = .ok () s' := by
  simp [Ends]

theorem ends_false {f : Member σ Unit} {s s' : σ} :
    Ends f s false s' ↔ ∃ message, f s = .error (.jsonException message) s' := by
  simp [Ends]

theorem Ends.bind {f g : Member σ Unit} {s s₁ s₂ : σ} {returns : Bool} (hf : Ends f s true s₁)
    (hg : Ends g s₁ returns s₂) : Ends (f >>= fun _ => g) s returns s₂ := by
  rw [Ends, bind_ok (ends_true.mp hf)]
  exact hg

theorem Ends.bind_throws {f : Member σ Unit} {g : Unit → Member σ Unit} {s s₁ : σ}
    (hf : Ends f s false s₁) : Ends (f >>= g) s false s₁ := by
  obtain ⟨message, he⟩ := ends_false.mp hf
  exact ends_false.mpr ⟨message, bind_error he⟩

theorem Ends.rethrowing {f : Member σ Unit} {s s' : σ} {returns : Bool} (h : Ends f s returns s')
    (message : String) : Ends (rethrowing message f) s returns s' := by
  cases returns with
  | true => exact ends_true.mpr (rethrowing_ok (ends_true.mp h))
  | false =>
    obtain ⟨m, he⟩ := ends_false.mp h
    exact ends_false.mpr ⟨m, rethrowing_error he⟩

theorem requireAll_ends (c : Bool) (message : String) (s : σ) :
    Ends (requireAll [(c, message)]) s c s := by
  cases c with
  | true => exact ends_true.mpr rfl
  | false => exact ends_false.mpr ⟨_, rfl⟩

end Member

/-! ## Reading members -/

namespace Json

/-- `j[key].is_…()` where the key is there. -/
def memberIs (j : Json) (key : String) (kind : Json → Bool) : Bool :=
  (j.find? (bytes key)).any kind

def hasMember (j : Json) (key : String) : Bool := j.contains (bytes key)

/-- `at`, which throws where there is no such member. -/
def atKey (j : Json) (key : String) : Except Error Json :=
  match j.find? (bytes key) with
  | some v => .ok v
  | none =>
      .error ⟨.outOfRange, bytes ("[json.exception.out_of_range.403] key '" ++ key ++ "' not found")⟩

/-- `get_to` a string. -/
def getString (j : Json) : Except Error Bytes :=
  match j.string? with
  | some s => .ok s
  | none => .error ⟨.typeError, bytes "[json.exception.type_error.302] type must be string"⟩

/-- `get_to` an `int32_t` from what has been checked to be an integer: a cast. -/
def getInt32 (j : Json) : Except Error Int32 :=
  match j.integer? with
  | some n => .ok (Int32.ofInt n)
  | none => .error ⟨.typeError, bytes "[json.exception.type_error.302] type must be number"⟩

theorem isSome_string? (j : Json) : j.string?.isSome = j.isString := by
  cases j <;> rfl

theorem isSome_integer? (j : Json) : j.integer?.isSome = j.isNumberInteger := by
  cases j <;> rfl

variable {j : Json} {key : String}

theorem memberIs_isString :
    j.memberIs key isString = ((j.find? (bytes key)).bind string?).isSome := by
  rw [memberIs]
  cases j.find? (bytes key) with
  | none => rfl
  | some v => exact (isSome_string? v).symm

theorem memberIs_isNumberInteger :
    j.memberIs key isNumberInteger = ((j.find? (bytes key)).bind integer?).isSome := by
  rw [memberIs]
  cases j.find? (bytes key) with
  | none => rfl
  | some v => exact (isSome_integer? v).symm

theorem hasMember_of_memberIs {kind : Json → Bool} (h : j.memberIs key kind = true) :
    j.hasMember key = true := by
  rw [memberIs] at h
  rw [hasMember, contains]
  cases hf : j.find? (bytes key) with
  | none =>
    rw [hf] at h
    cases h
  | some v => rfl

theorem getString_atKey {s : Bytes} (h : (j.find? (bytes key)).bind string? = some s) :
    (j.atKey key >>= getString) = .ok s := by
  obtain ⟨v, hv, hs⟩ := Option.bind_eq_some_iff.mp h
  simp only [atKey, hv, bind, Except.bind, getString, hs]

theorem getInt32_atKey {n : ℤ} (h : (j.find? (bytes key)).bind integer? = some n) :
    (j.atKey key >>= getInt32) = .ok (Int32.ofInt n) := by
  obtain ⟨v, hv, hn⟩ := Option.bind_eq_some_iff.mp h
  simp only [atKey, hv, bind, Except.bind, getInt32, hn]

end Json

structure GetServiceReq where
  token : Bytes
deriving Repr, DecidableEq

def GetServiceReq.toJson (lib : Json.Library) (req : GetServiceReq) : Except ModelError Bytes :=
  (lib.dump (.ofAssignments [(bytes "token", .string req.token)])).mapError fun e =>
    .rethrow "序列化GetServiceReq失败: " (.json e)

/-! ## One service -/

structure ServiceInfo where
  serviceName : Bytes := []
  serviceAddr : Bytes := []
  servicePort : Int32 := -1
  proxyPort : Int32 := -1
deriving Repr, DecidableEq

namespace ServiceInfo
open Member

def jsonValue (info : ServiceInfo) : Json :=
  .ofAssignments [(bytes "service_name", .string info.serviceName),
    (bytes "service_addr", .string info.serviceAddr),
    (bytes "service_port", .numberInteger info.servicePort.toInt64),
    (bytes "proxy_port", .numberInteger info.proxyPort.toInt64)]

def toJson (lib : Json.Library) (info : ServiceInfo) : Except ModelError Bytes :=
  (lib.dump info.jsonValue).mapError fun e => .rethrow "序列化ServiceInfo失败: " (.json e)

/-- Presence first, then types. -/
def checks (j : Json) : List (Bool × String) :=
  [(j.hasMember "service_name", "缺少必要字段: service_name"),
    (j.hasMember "service_addr", "缺少必要字段: service_addr"),
    (j.hasMember "service_port", "缺少必要字段：service_port"),
    (j.hasMember "proxy_port", "缺少必要字段: proxy_port"),
    (j.memberIs "service_name" Json.isString, "字段 service_name 必须是字符串类型"),
    (j.memberIs "service_addr" Json.isString, "字段 service_addr 必须是字符串类型"),
    (j.memberIs "service_port" Json.isNumberInteger, "字段 service_port 必须是整数类型"),
    (j.memberIs "proxy_port" Json.isNumberInteger, "字段 proxy_port 必须是整数类型")]

/-- `from_json(const nlohmann::json&)`. -/
def fromJson (j : Json) : Member ServiceInfo Unit :=
  rethrowing "解析ServiceInfo JSON失败: " do
    requireAll (checks j)
    let name ← ofJson (j.atKey "service_name" >>= Json.getString)
    modify fun info => { info with serviceName := name }
    let addr ← ofJson (j.atKey "service_addr" >>= Json.getString)
    modify fun info => { info with serviceAddr := addr }
    let port ← ofJson (j.atKey "service_port" >>= Json.getInt32)
    modify fun info => { info with servicePort := port }
    let port ← ofJson (j.atKey "proxy_port" >>= Json.getInt32)
    modify fun info => { info with proxyPort := port }

/-- `from_json(const std::string&)`. -/
def fromJsonText (lib : Json.Library) (s : Bytes) : Member ServiceInfo Unit :=
  rethrowing "解析ServiceInfo JSON失败: " do
    let j ← ofJson (lib.parse s)
    fromJson j

/-- The service that a value describes, if it does. -/
def read? (j : Json) : Option ServiceInfo := do
  let name ← (j.find? (bytes "service_name")).bind Json.string?
  let addr ← (j.find? (bytes "service_addr")).bind Json.string?
  let servicePort ← (j.find? (bytes "service_port")).bind Json.integer?
  let proxyPort ← (j.find? (bytes "proxy_port")).bind Json.integer?
  return ⟨name, addr, Int32.ofInt servicePort, Int32.ofInt proxyPort⟩

theorem read?_eq_some_iff {j : Json} {info : ServiceInfo} :
    read? j = some info ↔
      (j.find? (bytes "service_name")).bind Json.string? = some info.serviceName ∧
      (j.find? (bytes "service_addr")).bind Json.string? = some info.serviceAddr ∧
      (∃ n, (j.find? (bytes "service_port")).bind Json.integer? = some n ∧
        Int32.ofInt n = info.servicePort) ∧
      ∃ n, (j.find? (bytes "proxy_port")).bind Json.integer? = some n ∧
        Int32.ofInt n = info.proxyPort := by
  unfold read?
  generalize (j.find? (bytes "service_name")).bind Json.string? = name
  generalize (j.find? (bytes "service_addr")).bind Json.string? = addr
  generalize (j.find? (bytes "service_port")).bind Json.integer? = servicePort
  generalize (j.find? (bytes "proxy_port")).bind Json.integer? = proxyPort
  simp only [Option.bind_eq_bind, Option.bind_eq_some_iff, Option.pure_def, Option.some.injEq]
  constructor
  · rintro ⟨name, rfl, addr, rfl, sp, rfl, pp, rfl, rfl⟩
    exact ⟨rfl, rfl, ⟨sp, rfl, rfl⟩, pp, rfl, rfl⟩
  · rintro ⟨rfl, rfl, ⟨sp, rfl, hsp⟩, pp, rfl, hpp⟩
    exact ⟨_, rfl, _, rfl, sp, rfl, pp, rfl, by rw [hsp, hpp]⟩

/-- The checks let exactly the values through that describe a service. -/
theorem forall_checks_iff {j : Json} :
    (∀ c ∈ checks j, c.1 = true) ↔ ∃ info, read? j = some info := by
  simp only [checks, List.forall_mem_cons, read?_eq_some_iff]
  constructor
  · rintro ⟨-, -, -, -, hname, haddr, hservice, hproxy, -⟩
    rw [Json.memberIs_isString, Option.isSome_iff_exists] at hname haddr
    rw [Json.memberIs_isNumberInteger, Option.isSome_iff_exists] at hservice hproxy
    obtain ⟨name, hname⟩ := hname
    obtain ⟨addr, haddr⟩ := haddr
    obtain ⟨sp, hsp⟩ := hservice
    obtain ⟨pp, hpp⟩ := hproxy
    exact ⟨⟨name, addr, Int32.ofInt sp, Int32.ofInt pp⟩, hname, haddr, ⟨sp, hsp, rfl⟩, pp, hpp, rfl⟩
  · rintro ⟨info, hname, haddr, ⟨sp, hsp, -⟩, pp, hpp, -⟩
    have hname' : j.memberIs "service_name" Json.isString = true := by
      rw [Json.memberIs_isString, hname, Option.isSome_some]
    have haddr' : j.memberIs "service_addr" Json.isString = true := by
      rw [Json.memberIs_isString, haddr, Option.isSome_some]
    have hsp' : j.memberIs "service_port" Json.isNumberInteger = true := by
      rw [Json.memberIs_isNumberInteger, hsp, Option.isSome_some]
    have hpp' : j.memberIs "proxy_port" Json.isNumberInteger = true := by
      rw [Json.memberIs_isNumberInteger, hpp, Option.isSome_some]
    exact ⟨Json.hasMember_of_memberIs hname', Json.hasMember_of_memberIs haddr',
      Json.hasMember_of_memberIs hsp', Json.hasMember_of_memberIs hpp', hname', haddr', hsp', hpp',
      List.forall_mem_nil _⟩

theorem fromJson_of_read {j : Json} {info' : ServiceInfo} (h : read? j = some info')
    (info : ServiceInfo) : fromJson j info = .ok () info' := by
  have hchecks := forall_checks_iff.mpr ⟨info', h⟩
  obtain ⟨hname, haddr, ⟨sp, hsp, hsp'⟩, pp, hpp, hpp'⟩ := read?_eq_some_iff.mp h
  apply rethrowing_ok
  rw [bind_ok (requireAll_of_forall hchecks info), Json.getString_atKey hname,
    Json.getString_atKey haddr, Json.getInt32_atKey hsp, Json.getInt32_atKey hpp, hsp', hpp']
  rfl

theorem fromJson_of_unread {j : Json} (h : read? j = none) (info : ServiceInfo) :
    ∃ message, fromJson j info = .error (.jsonException message) info := by
  have hchecks : ¬∀ c ∈ checks j, c.1 = true := by
    rw [forall_checks_iff, h]
    simp
  obtain ⟨message, he⟩ := requireAll_of_not_forall hchecks info
  exact ⟨message, rethrowing_error (bind_error he)⟩

/-- All checks come before the first assignment. -/
theorem fromJsonText_error {lib : Json.Library} {s : Bytes} {info info' : ServiceInfo}
    {e : ModelError} (h : fromJsonText lib s info = .error e info') : info' = info := by
  unfold fromJsonText rethrowing at h
  cases hparse : lib.parse s with
  | error e =>
    rw [hparse] at h
    cases h
    rfl
  | ok j =>
    rw [hparse, bind_ok (show ofJson (.ok j) info = .ok j info from rfl)] at h
    cases hread : read? j with
    | none =>
      obtain ⟨message, he⟩ := fromJson_of_unread hread info
      rw [he] at h
      cases h
      rfl
    | some info₁ =>
      rw [fromJson_of_read hread] at h
      cases h

end ServiceInfo

/-! ## The answer of the gateway -/

@[ext]
structure GetServiceResp where
  services : List ServiceInfo := []
  serverAddr : Bytes := []
  serverPort : Int32 := -1
deriving Repr, DecidableEq

namespace GetServiceResp
open Member

/-- Every service is printed and read again. -/
def servicesArray (lib : Json.Library) : List ServiceInfo → Except ModelError (List Json)
  | [] => .ok []
  | info :: services => do
      let text ← info.toJson lib
      let j ← (lib.parse text).mapError .json
      let rest ← servicesArray lib services
      return j :: rest

def jsonValue (services : List Json) (r : GetServiceResp) : Json :=
  .ofAssignments [(bytes "services", .array services), (bytes "server_addr", .string r.serverAddr),
    (bytes "server_port", .numberInteger r.serverPort.toInt64)]

def toJson (lib : Json.Library) (r : GetServiceResp) : Except ModelError Bytes :=
  Except.mapError (.rethrow "序列化GetServiceResp失败: ") do
    let services ← servicesArray lib r.services
    (lib.dump (r.jsonValue services)).mapError .json

/-- The loop over the array. -/
def pushServices : List Json → Member GetServiceResp Unit
  | [] => pure ()
  | j :: js => do
      match ServiceInfo.fromJson j {} with
      | .ok _ service => modify fun r => { r with services := r.services ++ [service] }
      | .error e _ => throw e
      pushServices js

/-- The elements of an array under the key. -/
def elements (j : Json) (key : String) : List Json :=
  match j.find? (bytes key) with
  | some (.array xs) => xs
  | _ => []

def readServices (j : Json) : Member GetServiceResp Unit := do
  modify fun r => { r with services := [] }
  if j.hasMember "services" then do
    requireAll [(j.memberIs "services" Json.isArray, "字段 services 必须是数组类型")]
    pushServices (elements j "services")

/-- A member that has a default if it is not there. -/
def readOptional {α : Type} (j : Json) (key : String) (kind : Json → Bool) (message : String)
    (getTo : Json → Except Json.Error α) (default : α) (assign : α → GetServiceResp → GetServiceResp) :
    Member GetServiceResp Unit :=
  if j.hasMember key then do
    requireAll [(j.memberIs key kind, message)]
    let a ← ofJson (j.atKey key >>= getTo)
    modify (assign a)
  else modify (assign default)

def readServerAddr (j : Json) : Member GetServiceResp Unit :=
  readOptional j "server_addr" Json.isString "字段 server_addr 必须是字符串类型" Json.getString []
    fun addr r => { r with serverAddr := addr }

def readServerPort (j : Json) : Member GetServiceResp Unit :=
  readOptional j "server_port" Json.isNumberInteger "字段 server_port 必须是整数类型" Json.getInt32 0
    fun port r => { r with serverPort := port }

/-- `from_json(const nlohmann::json&)`. -/
def fromJson (j : Json) : Member GetServiceResp Unit :=
  rethrowing "解析GetServiceResp JSON失败: " do
    readServices j
    readServerAddr j
    readServerPort j

/-- `catch (const nlohmann::json::parse_error& e)`. -/
def rethrowParseError : ModelError → ModelError
  | .json e =>
      if e.kind = .parseError then .jsonException (bytes "解析JSON字符串失败: " ++ e.what) else .json e
  | .jsonException m => .jsonException m

/-- `from_json(const std::string&)`. -/
def fromJsonText (lib : Json.Library) (s : Bytes) : Member GetServiceResp Unit := fun r =>
  match lib.parse s with
  | .error e => .error (rethrowParseError (.json e)) r
  | .ok j =>
      match fromJson j r with
      | .ok a r => .ok a r
      | .error e r => .error (rethrowParseError e) r

/-- What is neither a parse error nor a `JsonException` is reported as unknown. -/
def parse (lib : Json.Library) (text : Bytes) : Except ModelError GetServiceResp :=
  Except.mapError (fun e => .rethrow "解析GetServiceResp时发生未知错误: " (rethrowParseError e)) <|
    match lib.parse text with
    | .error e => .error (.json e)
    | .ok j =>
        match fromJson j {} with
        | .ok _ r => .ok r
        | .error e _ => .error e

/-- The services up to the first element that is none, and whether there is no such element. -/
def readAll : List Json → List ServiceInfo × Bool
  | [] => ([], true)
  | j :: js =>
      match ServiceInfo.read? j with
      | none => ([], false)
      | some info => (info :: (readAll js).1, (readAll js).2)

def servicesOf (j : Json) : List ServiceInfo × Bool :=
  match j.find? (bytes "services") with
  | none => ([], true)
  | some (.array xs) => readAll xs
  | some _ => ([], false)

def optionalOf {α : Type} (j : Json) (key : String) (get : Json → Option α) (default : α) : Option α :=
  match j.find? (bytes key) with
  | none => some default
  | some v => get v

def serverAddrOf (j : Json) : Option Bytes := optionalOf j "server_addr" Json.string? []

def serverPortOf (j : Json) : Option Int32 :=
  optionalOf j "server_port" (fun v => v.integer?.map Int32.ofInt) 0

theorem pushServices_ends (js : List Json) (r : GetServiceResp) :
    Ends (pushServices js) r (readAll js).2 { r with services := r.services ++ (readAll js).1 } := by
  induction js generalizing r with
  | nil =>
    rw [readAll, List.append_nil]
    exact ends_true.mpr rfl
  | cons j js ih =>
    rw [pushServices, readAll]
    cases hread : ServiceInfo.read? j with
    | none =>
      obtain ⟨message, he⟩ := ServiceInfo.fromJson_of_unread hread {}
      refine ends_false.mpr ⟨message, ?_⟩
      rw [he, List.append_nil]
      rfl
    | some info =>
      rw [ServiceInfo.fromJson_of_read hread {}]
      refine Ends.bind (ends_true.mpr rfl) ?_
      have hrest := ih { r with services := r.services ++ [info] }
      rwa [List.append_assoc] at hrest

theorem readServices_ends (j : Json) (r : GetServiceResp) :
    Ends (readServices j) r (servicesOf j).2 { r with services := (servicesOf j).1 } := by
  refine Ends.bind (ends_true.mpr rfl) ?_
  unfold servicesOf Json.hasMember Json.contains Json.memberIs elements
  cases hf : j.find? (bytes "services") with
  | none => exact ends_true.mpr rfl
  | some v =>
    cases v with
    | array xs =>
      refine Ends.bind (requireAll_ends true _ _) ?_
      exact pushServices_ends xs { r with services := [] }
    | _ => exact Ends.bind_throws (requireAll_ends false _ _)

theorem readOptional_ends {α : Type} {j : Json} {key : String} {kind : Json → Bool}
    {message : String} {getTo : Json → Except Json.Error α} {default : α}
    {assign : α → GetServiceResp → GetServiceResp} {get : Json → Option α}
    (hkind : ∀ v, kind v = (get v).isSome)
    (hget : ∀ a, (j.find? (bytes key)).bind get = some a → (j.atKey key >>= getTo) = .ok a)
    (r : GetServiceResp) :
    Ends (readOptional j key kind message getTo default assign) r
      (optionalOf j key get default).isSome
      ((optionalOf j key get default).elim r (assign · r)) := by
  unfold readOptional optionalOf Json.hasMember Json.contains Json.memberIs
  cases hf : j.find? (bytes key) with
  | none => exact ends_true.mpr rfl
  | some v =>
    rw [hf, Option.bind_some] at hget
    simp only [Option.isSome_some, if_true, Option.any_some, hkind v]
    cases hv : get v with
    | none => exact Ends.bind_throws (requireAll_ends false _ _)
    | some a =>
      refine Ends.bind (requireAll_ends true _ _) ?_
      rw [hget a hv]
      exact ends_true.mpr rfl

theorem readServerAddr_ends (j : Json) (r : GetServiceResp) :
    Ends (readServerAddr j) r (serverAddrOf j).isSome
      ((serverAddrOf j).elim r fun addr => { r with serverAddr := addr }) :=
  readOptional_ends (fun v => (Json.isSome_string? v).symm) (fun _ => Json.getString_atKey) r

theorem readServerPort_ends (j : Json) (r : GetServiceResp) :
    Ends (readServerPort j) r (serverPortOf j).isSome
      ((serverPortOf j).elim r fun port => { r with serverPort := port }) := by
  refine readOptional_ends (fun v => ?_) (fun a ha => ?_) r
  · rw [Option.isSome_map, Json.isSome_integer?]
  · obtain ⟨v, hv, hmap⟩ := Option.bind_eq_some_iff.mp ha
    obtain ⟨n, hn, rfl⟩ := Option.map_eq_some_iff.mp hmap
    exact Json.getInt32_atKey (by rw [hv]; exact hn)

/-- Nothing in the value is refused. -/
def Accepted (j : Json) : Prop :=
  (servicesOf j).2 = true ∧ (serverAddrOf j).isSome ∧ (serverPortOf j).isSome

/-- What `from_json` leaves behind: the services up to the first bad one in any
case, and the members before the first that is refused. -/
def leftBehind (j : Json) (r : GetServiceResp) : GetServiceResp :=
  let r := { r with services := (servicesOf j).1 }
  if (servicesOf j).2 then
    match serverAddrOf j with
    | none => r
    | some addr => { r with serverAddr := addr, serverPort := (serverPortOf j).getD r.serverPort }
  else r

instance (j : Json) : Decidable (Accepted j) := inferInstanceAs (Decidable (_ ∧ _))

theorem fromJson_ends (j : Json) (r : GetServiceResp) :
    Ends (fromJson j) r (decide (Accepted j)) (leftBehind j r) := by
  apply Ends.rethrowing
  have hservices := readServices_ends j r
  unfold leftBehind
  cases hs : (servicesOf j).2 with
  | false =>
    rw [hs] at hservices
    have hno : decide (Accepted j) = false := by simp [Accepted, hs]
    rw [hno]
    exact hservices.bind_throws
  | true =>
    rw [hs] at hservices
    refine Ends.bind hservices ?_
    have haddr := readServerAddr_ends j { r with services := (servicesOf j).1 }
    cases ha : serverAddrOf j with
    | none =>
      rw [ha] at haddr
      have hno : decide (Accepted j) = false := by simp [Accepted, ha]
      rw [hno]
      exact haddr.bind_throws
    | some addr =>
      rw [ha] at haddr
      refine Ends.bind haddr ?_
      have hport := readServerPort_ends j
        { r with services := (servicesOf j).1, serverAddr := addr }
      have hyes : decide (Accepted j) = (serverPortOf j).isSome := by simp [Accepted, hs, ha]
      rw [hyes]
      cases hp : serverPortOf j with
      | none =>
        rw [hp] at hport
        exact hport
      | some port =>
        rw [hp] at hport
        exact hport

theorem fromJsonText_ends {lib : Json.Library} {s : Bytes} {j : Json} (hparse : lib.parse s = .ok j)
    (r : GetServiceResp) : Ends (fromJsonText lib s) r (decide (Accepted j)) (leftBehind j r) := by
  have h := fromJson_ends j r
  cases hd : decide (Accepted j) with
  | true =>
    rw [hd, ends_true] at h
    exact ends_true.mpr (by simp only [fromJsonText, hparse, h])
  | false =>
    rw [hd, ends_false] at h
    obtain ⟨message, he⟩ := h
    exact ends_false.mpr ⟨message, by simp only [fromJsonText, hparse, he, rethrowParseError]⟩

/-! ## There and back -/

/-- All strings are UTF-8. -/
structure Utf8Strings (r : GetServiceResp) : Prop where
  services : ∀ info ∈ r.services, Utf8 info.serviceName ∧ Utf8 info.serviceAddr
  serverAddr : Utf8 r.serverAddr

end GetServiceResp

namespace ServiceInfo

variable (info : ServiceInfo)

theorem find?_jsonValue :
    info.jsonValue.find? (bytes "service_name") = some (.string info.serviceName) ∧
    info.jsonValue.find? (bytes "service_addr") = some (.string info.serviceAddr) ∧
    info.jsonValue.find? (bytes "service_port") =
      some (.numberInteger info.servicePort.toInt64) ∧
    info.jsonValue.find? (bytes "proxy_port") = some (.numberInteger info.proxyPort.toInt64) := by
  have hkeys : [bytes "service_name", bytes "service_addr", bytes "service_port",
      bytes "proxy_port"].Nodup := by
    decide
  refine ⟨Json.find?_ofAssignments ?_ ?_, Json.find?_ofAssignments ?_ ?_,
    Json.find?_ofAssignments ?_ ?_, Json.find?_ofAssignments ?_ ?_⟩
  any_goals exact hkeys
  all_goals simp

theorem exact_jsonValue : info.jsonValue.all Json.exactNode = true := by
  refine Json.exact_ofAssignments ?_
  simp only [List.forall_mem_cons]
  exact ⟨rfl, rfl, rfl, rfl, List.forall_mem_nil _⟩

theorem valid_jsonValue_iff :
    info.jsonValue.all Json.validNode = true ↔ Utf8 info.serviceName ∧ Utf8 info.serviceAddr := by
  obtain ⟨hname, haddr, -, -⟩ := info.find?_jsonValue
  constructor
  · intro h
    exact ⟨of_decide_eq_true (Json.all_of_find? h hname),
      of_decide_eq_true (Json.all_of_find? h haddr)⟩
  · rintro ⟨hname, haddr⟩
    refine Json.valid_ofAssignments ?_ ?_
    · simp only [List.forall_mem_cons]
      refine ⟨?_, ?_, ?_, ?_, List.forall_mem_nil _⟩
      all_goals decide +kernel
    · simp only [List.forall_mem_cons]
      exact ⟨decide_eq_true hname, decide_eq_true haddr, rfl, rfl, List.forall_mem_nil _⟩

/-- What the printed service is read back as describes it. -/
theorem read?_jsonValue : read? info.jsonValue.normalize = some info := by
  obtain ⟨hname, haddr, hservice, hproxy⟩ := info.find?_jsonValue
  rw [read?_eq_some_iff]
  simp only [Json.find?_normalize, hname, haddr, hservice, hproxy, Option.map_some,
    Option.bind_some, Json.string?_normalize, Json.integer?_normalize]
  refine ⟨rfl, rfl, ⟨_, rfl, ?_⟩, _, rfl, ?_⟩
  · rw [Int32.toInt_toInt64, Int32.ofInt_toInt]
  · rw [Int32.toInt_toInt64, Int32.ofInt_toInt]

theorem toJson_of_valid (lib : Json.Library) (h : Utf8 info.serviceName ∧ Utf8 info.serviceAddr) :
    ∃ text, info.toJson lib = .ok text ∧ lib.parse text = .ok info.jsonValue.normalize := by
  obtain ⟨text, hdump, hparse⟩ :=
    lib.parse_dump info.jsonValue (info.valid_jsonValue_iff.mpr h) info.exact_jsonValue
  exact ⟨text, by rw [toJson, hdump]; rfl, hparse⟩

theorem toJson_of_not_valid (lib : Json.Library)
    (h : ¬(Utf8 info.serviceName ∧ Utf8 info.serviceAddr)) :
    ∃ message, info.toJson lib = .error (.jsonException message) := by
  rw [← info.valid_jsonValue_iff, Bool.not_eq_true] at h
  obtain ⟨e, he⟩ := lib.dump_throws info.jsonValue h
  exact ⟨_, by rw [toJson, he]; rfl⟩

end ServiceInfo

namespace GetServiceResp
open Member

/-- The services as `to_json` puts them into the array. -/
def printed (services : List ServiceInfo) : List Json :=
  services.map fun info => info.jsonValue.normalize

theorem servicesArray_of_valid (lib : Json.Library) {services : List ServiceInfo}
    (h : ∀ info ∈ services, Utf8 info.serviceName ∧ Utf8 info.serviceAddr) :
    servicesArray lib services = .ok (printed services) := by
  induction services with
  | nil => rfl
  | cons info services ih =>
    rw [List.forall_mem_cons] at h
    obtain ⟨text, htext, hparse⟩ := info.toJson_of_valid lib h.1
    rw [servicesArray, htext]
    simp only [bind, Except.bind, hparse, Except.mapError, ih h.2]
    rfl

theorem servicesArray_of_not_valid (lib : Json.Library) {services : List ServiceInfo}
    (h : ¬∀ info ∈ services, Utf8 info.serviceName ∧ Utf8 info.serviceAddr) :
    ∃ message, servicesArray lib services = .error (.jsonException message) := by
  induction services with
  | nil => exact absurd (List.forall_mem_nil _) h
  | cons info services ih =>
    rw [List.forall_mem_cons] at h
    by_cases hinfo : Utf8 info.serviceName ∧ Utf8 info.serviceAddr
    · obtain ⟨text, htext, hparse⟩ := info.toJson_of_valid lib hinfo
      obtain ⟨message, he⟩ := ih fun hall => h ⟨hinfo, hall⟩
      refine ⟨message, ?_⟩
      rw [servicesArray, htext]
      simp only [bind, Except.bind, hparse, Except.mapError, he]
    · obtain ⟨message, he⟩ := info.toJson_of_not_valid lib hinfo
      refine ⟨message, ?_⟩
      rw [servicesArray, he]
      rfl

theorem readAll_printed (services : List ServiceInfo) :
    readAll (printed services) = (services, true) := by
  induction services with
  | nil => rfl
  | cons info services ih =>
    change readAll (info.jsonValue.normalize :: printed services) = _
    rw [readAll, info.read?_jsonValue, ih]

theorem find?_jsonValue (services : List Json) (r : GetServiceResp) :
    (r.jsonValue services).find? (bytes "services") = some (.array services) ∧
    (r.jsonValue services).find? (bytes "server_addr") = some (.string r.serverAddr) ∧
    (r.jsonValue services).find? (bytes "server_port") =
      some (.numberInteger r.serverPort.toInt64) := by
  have hkeys : [bytes "services", bytes "server_addr", bytes "server_port"].Nodup := by decide
  refine ⟨Json.find?_ofAssignments ?_ ?_, Json.find?_ofAssignments ?_ ?_,
    Json.find?_ofAssignments ?_ ?_⟩
  any_goals exact hkeys
  all_goals simp

theorem exact_jsonValue {services : List Json} (h : ∀ j ∈ services, j.all Json.exactNode = true)
    (r : GetServiceResp) : (r.jsonValue services).all Json.exactNode = true := by
  refine Json.exact_ofAssignments ?_
  simp only [List.forall_mem_cons]
  exact ⟨Json.allElements_iff.mpr h, rfl, rfl, List.forall_mem_nil _⟩

theorem valid_jsonValue_iff {services : List Json}
    (h : ∀ j ∈ services, j.all Json.validNode = true) (r : GetServiceResp) :
    (r.jsonValue services).all Json.validNode = true ↔ Utf8 r.serverAddr := by
  obtain ⟨-, haddr, -⟩ := find?_jsonValue services r
  constructor
  · intro hall
    exact of_decide_eq_true (Json.all_of_find? hall haddr)
  · intro hutf8
    refine Json.valid_ofAssignments ?_ ?_
    · simp only [List.forall_mem_cons]
      refine ⟨?_, ?_, ?_, List.forall_mem_nil _⟩
      all_goals decide +kernel
    · simp only [List.forall_mem_cons]
      exact ⟨Json.allElements_iff.mpr h, decide_eq_true hutf8, rfl, List.forall_mem_nil _⟩

/-- What the printed answer is read back as describes it. -/
theorem of_jsonValue (r : GetServiceResp) {j : Json}
    (hj : j = (r.jsonValue (printed r.services)).normalize) :
    Accepted j ∧ leftBehind j {} = r := by
  obtain ⟨hservices, haddr, hport⟩ := find?_jsonValue (printed r.services) r
  have hs : servicesOf j = (r.services, true) := by
    -- the services have been read once already
    have hnorm : Json.normalize (.array (printed r.services)) = .array (printed r.services) := by
      rw [Json.normalize, Json.normalizeElements_eq, printed, List.map_map]
      congr 2
      funext info
      exact Json.normalize_normalize _
    rw [servicesOf, hj, Json.find?_normalize, hservices, Option.map_some, hnorm]
    exact readAll_printed r.services
  have ha : serverAddrOf j = some r.serverAddr := by
    rw [serverAddrOf, optionalOf, hj, Json.find?_normalize, haddr]
    rfl
  have hp : serverPortOf j = some r.serverPort := by
    rw [serverPortOf, optionalOf, hj, Json.find?_normalize, hport]
    dsimp only [Option.map_some]
    rw [Json.integer?_normalize, Json.integer?, Option.map_some, Int32.toInt_toInt64,
      Int32.ofInt_toInt]
  refine ⟨⟨by rw [hs], by rw [ha]; rfl, by rw [hp]; rfl⟩, ?_⟩
  simp [leftBehind, hs, ha, hp]

theorem parse_of_accepted {lib : Json.Library} {text : Bytes} {j : Json}
    (hparse : lib.parse text = .ok j) (haccepted : Accepted j) :
    parse lib text = .ok (leftBehind j {}) := by
  have hends := fromJson_ends j {}
  rw [decide_eq_true haccepted, ends_true] at hends
  simp only [parse, hparse, hends, Except.mapError]

theorem services_of_accepted {j : Json} (h : Accepted j) (r : GetServiceResp) :
    (readAll (elements j "services")).2 = true ∧
      (leftBehind j r).services = (readAll (elements j "services")).1 := by
  have hall : servicesOf j = readAll (elements j "services") := by
    have htrue := h.1
    unfold servicesOf elements at *
    cases hf : j.find? (bytes "services") with
    | none => rfl
    | some v =>
      cases v with
      | array xs => rfl
      | _ =>
        rw [hf] at htrue
        cases htrue
  refine ⟨hall ▸ h.1, ?_⟩
  rw [← hall]
  obtain ⟨addr, haddr⟩ := Option.isSome_iff_exists.mp h.2.1
  simp only [leftBehind, h.1, if_true, haddr]

theorem serverPort_of_accepted {j : Json} (h : Accepted j) (r : GetServiceResp) :
    ∃ n, optionalOf j "server_port" Json.integer? 0 = some n ∧
      (leftBehind j r).serverPort = .ofInt n := by
  have hport : serverPortOf j = (optionalOf j "server_port" Json.integer? 0).map Int32.ofInt := by
    unfold serverPortOf optionalOf
    cases j.find? (bytes "server_port") with
    | none => rfl
    | some v => rfl
  obtain ⟨addr, haddr⟩ := Option.isSome_iff_exists.mp h.2.1
  obtain ⟨port, hsome⟩ := Option.isSome_iff_exists.mp h.2.2
  obtain ⟨n, hn, hof⟩ := Option.map_eq_some_iff.mp (hport ▸ hsome)
  refine ⟨n, hn, ?_⟩
  simp only [leftBehind, h.1, if_true, haddr, hsome, Option.getD_some, hof]

theorem accepted_of_parse {lib : Json.Library} {text : Bytes} {r : GetServiceResp}
    (h : parse lib text = .ok r) :
    ∃ j, lib.parse text = .ok j ∧ Accepted j ∧ r = leftBehind j {} := by
  cases hparse : lib.parse text with
  | error e =>
    rw [parse, hparse] at h
    cases h
  | ok j =>
    by_cases haccepted : Accepted j
    · rw [parse_of_accepted hparse haccepted, Except.ok.injEq] at h
      exact ⟨j, rfl, haccepted, h.symm⟩
    · have hends := fromJson_ends j {}
      rw [decide_eq_false haccepted, ends_false] at hends
      obtain ⟨message, he⟩ := hends
      simp only [parse, hparse, he] at h
      cases h

theorem all_printed {p : Json → Bool} (hp : ∀ j, p j.normalize = p j) {r : GetServiceResp}
    (h : ∀ info ∈ r.services, info.jsonValue.all p = true) :
    ∀ j ∈ printed r.services, j.all p = true := by
  intro j hj
  obtain ⟨info, hinfo, rfl⟩ := List.mem_map.mp hj
  rw [Json.all_normalize hp]
  exact h info hinfo

/-- Printing an answer whose strings are UTF-8 and reading it gives the answer;
with any other string printing throws a `JsonException`. -/
theorem parse_toJson (lib : Json.Library) (r : GetServiceResp) :
    (r.Utf8Strings → ∃ text, r.toJson lib = .ok text ∧ parse lib text = .ok r) ∧
      (¬r.Utf8Strings → ∃ message, r.toJson lib = .error (.jsonException message)) := by
  by_cases hservices : ∀ info ∈ r.services, Utf8 info.serviceName ∧ Utf8 info.serviceAddr
  · have harray : servicesArray lib r.services = .ok (printed r.services) :=
      servicesArray_of_valid lib hservices
    have hvalid := valid_jsonValue_iff (all_printed Json.validNode_normalize
      fun info hinfo => info.valid_jsonValue_iff.mpr (hservices info hinfo)) r
    have hexact : (r.jsonValue (printed r.services)).all Json.exactNode = true :=
      exact_jsonValue (all_printed Json.exactNode_normalize fun info _ => info.exact_jsonValue) r
    refine ⟨fun hutf8 => ?_, fun hno => ?_⟩
    · obtain ⟨text, hdump, hparse⟩ := lib.parse_dump _ (hvalid.mpr hutf8.serverAddr) hexact
      obtain ⟨haccepted, hr⟩ := r.of_jsonValue rfl
      refine ⟨text, ?_, ?_⟩
      · rw [toJson, harray]
        simp only [bind, Except.bind, hdump, Except.mapError]
      · rw [parse_of_accepted hparse haccepted]
        exact congrArg Except.ok hr
    · have hbad : (r.jsonValue (printed r.services)).all Json.validNode = false := by
        rw [← Bool.not_eq_true, hvalid]
        exact fun hutf8 => hno ⟨hservices, hutf8⟩
      obtain ⟨e, he⟩ := lib.dump_throws _ hbad
      refine ⟨bytes "序列化GetServiceResp失败: " ++ e.what, ?_⟩
      rw [toJson, harray]
      simp only [bind, Except.bind, he, Except.mapError, ModelError.rethrow]
  · obtain ⟨message, he⟩ := servicesArray_of_not_valid lib hservices
    refine ⟨fun hutf8 => absurd hutf8.services hservices, fun _ => ⟨message, ?_⟩⟩
    rw [toJson, he]
    rfl

/-- An answer with one service whose ports are negative and large. -/
theorem parse_toJson_example :
    ∃ text, toJson JsonText.library ⟨[⟨bytes "ssh", bytes "127.0.0.1", -22, 70000⟩], [], 6666⟩ =
        .ok text ∧
      parse JsonText.library text = .ok ⟨[⟨bytes "ssh", bytes "127.0.0.1", -22, 70000⟩], [], 6666⟩ := by
  refine (parse_toJson JsonText.library _).1 ⟨?_, by decide +kernel⟩
  rw [List.forall_mem_singleton]
  exact ⟨by decide +kernel, by decide +kernel⟩

/-! ## What a failed reading changes -/

theorem leftBehind_eq_iff {j : Json} {prior : GetServiceResp} (h : ¬Accepted j) :
    leftBehind j prior = prior ↔ (servicesOf j).1 = prior.services ∧
      ((servicesOf j).2 = true → ∀ addr, serverAddrOf j = some addr → addr = prior.serverAddr) := by
  unfold leftBehind
  cases hs : (servicesOf j).2 with
  | false => simp [GetServiceResp.ext_iff]
  | true =>
    cases ha : serverAddrOf j with
    | none => simp [GetServiceResp.ext_iff]
    | some addr =>
      -- the port is what is refused, so it keeps its value
      have hp : serverPortOf j = none := by
        by_contra hp
        exact h ⟨hs, by simp [ha], Option.isSome_iff_ne_none.mpr hp⟩
      simp [hp, GetServiceResp.ext_iff]

/-- A failed `from_json` never changes a service.  It leaves the answer of the
gateway as it was exactly if the services before the first bad one are those
it had, and so is the address if only the port is refused. -/
theorem fromJson_unchanged_iff (lib : Json.Library) (s : Bytes) :
    (∀ prior e after, ServiceInfo.fromJsonText lib s prior = .error e after → after = prior) ∧
    ∀ prior : GetServiceResp,
      (∀ message after, fromJsonText lib s prior = .error (.jsonException message) after →
        after = prior) ↔
      ∀ j, lib.parse s = .ok j → ¬Accepted j → (servicesOf j).1 = prior.services ∧
        ((servicesOf j).2 = true → ∀ addr, serverAddrOf j = some addr →
          addr = prior.serverAddr) := by
  refine ⟨fun prior e after => ServiceInfo.fromJsonText_error, fun prior => ?_⟩
  cases hparse : lib.parse s with
  | error e =>
    refine iff_of_true (fun message after he => ?_) fun j hj => ?_
    · simp only [fromJsonText, hparse, EStateM.Result.error.injEq] at he
      exact he.2.symm
    · cases hj
  | ok j =>
    have hends := fromJsonText_ends hparse prior
    by_cases haccepted : Accepted j
    · rw [decide_eq_true haccepted, ends_true] at hends
      refine iff_of_true (fun message after he => ?_) fun j' hj' hno => ?_
      · rw [hends] at he
        cases he
      · cases hj'
        exact absurd haccepted hno
    · rw [decide_eq_false haccepted, ends_false] at hends
      obtain ⟨message, hends⟩ := hends
      rw [hends]
      refine Iff.trans ⟨fun hall => hall message _ rfl, fun heq m after he => ?_⟩
        ((leftBehind_eq_iff haccepted).trans ⟨fun hkept j' hj' _ => ?_, fun hall => hall j rfl haccepted⟩)
      · rw [EStateM.Result.error.injEq] at he
        exact he.2.symm.trans heq
      · cases hj'
        exact hkept

/-- An object whose services are a number is refused, and the services are gone. -/
theorem fromJson_clears_services :
    ∃ message after,
      fromJsonText JsonText.library (bytes "\x7b\"services\":1\x7d") ⟨[{}], [], 0⟩ =
        .error (.jsonException message) after ∧ after = ⟨[], [], 0⟩ := by
  have htext : bytes "\x7b\"services\":1\x7d" =
      JsonText.print (.object [(bytes "services", .numberUnsigned 1)]) := by
    decide +kernel
  have hparse : JsonText.library.parse (bytes "\x7b\"services\":1\x7d") =
      .ok (.object [(bytes "services", .numberUnsigned 1)]) := by
    rw [htext]
    exact JsonText.library_parse_print (j := .object [(bytes "services", .numberUnsigned 1)])
      (by decide +kernel) (by decide +kernel)
  have hends := fromJsonText_ends hparse ⟨[{}], [], 0⟩
  have hno : ¬Accepted (.object [(bytes "services", .numberUnsigned 1)]) := by decide +kernel
  rw [decide_eq_false hno, ends_false] at hends
  obtain ⟨message, he⟩ := hends
  exact ⟨message, _, he, by decide +kernel⟩

end GetServiceResp

end NcxTunnel
