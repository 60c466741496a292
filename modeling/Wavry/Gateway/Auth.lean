import Mathlib
import Wavry.Lib.AssocMap
import Wavry.Lib.Positions

/-! Account lockout of the gateway's `login` (`wavry-gateway` `auth.rs`, with
the `login_failures` table of `db.rs`). A login reads the failure row of its
email and of its IP, looks the user up, checks the ban, verifies the password
and then the TOTP code, and records or resets failures, each a separate step
on the database. Concurrent logins interleave these steps: a request is a
thread with the phase it has reached, and the scheduler picks which thread
moves next and at what time. Every failed verification is logged with the
email's failure row at that moment. Times are seconds; the stored account and
the in-memory rate limiter's answer are inputs. -/
namespace Wavry.Gateway

/-- `MAX_LOGIN_ATTEMPTS`. -/
def maxLoginAttempts : Nat := 5

/-- `LOCKOUT_DURATION_MINUTES`. -/
def lockoutDurationMinutes : Nat := 15

/-- The `login_failures` table: a count and the time of the last failure for
each identifier. -/
abbrev FailureTable := AssocMap String (Nat × Nat)

/-- `record_login_failure`: insert a count of one, or add one; either way the
last failure is now. -/
def recordLoginFailure (table : FailureTable) (identifier : String) (now : Nat) : FailureTable :=
  match table.get identifier with
  | some (count, _) => table.insert identifier (count + 1, now)
  | none => table.insert identifier (1, now)

/-- `reset_login_failure`. -/
def resetLoginFailure (table : FailureTable) (identifier : String) : FailureTable :=
  table.erase identifier

/-- The lockout test on a row `get_login_failures` returned. -/
def isLocked (row : Option (Nat × Nat)) (now : Nat) : Bool :=
  match row with
  | some (count, lastFailure) =>
      decide (count ≥ maxLoginAttempts) && decide (now < lastFailure + lockoutDurationMinutes * 60)
  | none => false

/-- `is_reasonable_password_input`; `len` counts UTF-8 bytes. -/
def isReasonablePasswordInput (password : String) : Bool :=
  !password.isEmpty && decide (password.utf8ByteSize ≤ 128)

/-- The stored user as the handler uses it. -/
structure Account where
  banReason : Option String
  /-- `PasswordHash::new` parses the stored hash. -/
  hashParses : Bool
  /-- `verify_password` against the stored hash. -/
  passwordMatches : String → Bool
  /-- With 2FA: whether decrypting the secret and building the TOTP succeed,
  and `check_current`. -/
  totp : Option (Bool × (String → Bool))

/-- A login request, its email already normalized. `allowed` is the answer of
`ensure_auth_rate_limit`. -/
structure LoginRequest where
  email : String
  clientIp : String
  password : String
  totpCode : Option String
  allowed : Bool

def LoginRequest.failureKey (req : LoginRequest) : String := "email:" ++ req.email

def LoginRequest.ipFailureKey (req : LoginRequest) : String := "ip:" ++ req.clientIp

structure Response where
  status : Nat
  message : String

/-- Where a login stands: the step it takes next. -/
inductive Phase where
  | accountLockout
  | ipLockout
  | lookUp
  | banCheck (account : Account)
  | verifyPassword (account : Account)
  | verifyTotp (account : Account) (secret : Bool × (String → Bool))
  /-- `record_login_failure` for each identifier, one a step, then the response -/
  | record (identifiers : List String) (response : Response)
  /-- `reset_login_failure` for each identifier, one a step, then the session -/
  | reset (identifiers : List String)
  | done (response : Response)

/-- A failed password or TOTP verification, with the email's failure row when
it failed. -/
structure FailedVerification where
  email : String
  time : Nat
  row : Option (Nat × Nat)

section Login

variable (accounts : String → Option Account) (isValidEmail : String → Bool)

/-- One step of `login` at time `now`: the table after it, the next phase, and
the failed verification it logged, if any. -/
def loginStep (table : FailureTable) (req : LoginRequest) (now : Nat) :
    Phase → FailureTable × Phase × Option FailedVerification
  | .accountLockout =>
      if !req.allowed then (table, .done ⟨429, "Too many requests"⟩, none)
      else if isLocked (table.get req.failureKey) now then
        (table, .done ⟨429, "Account locked due to too many failed attempts. Try again later."⟩, none)
      else (table, .ipLockout, none)
  | .ipLockout =>
      if isLocked (table.get req.ipFailureKey) now then
        (table, .done ⟨429, "Too many failed attempts from this IP. Try again later."⟩, none)
      else if !isValidEmail req.email || !isReasonablePasswordInput req.password then
        (table, .done ⟨400, "Invalid login payload"⟩, none)
      else (table, .lookUp, none)
  | .lookUp =>
      match accounts req.email with
      | none => (table, .record [req.ipFailureKey] ⟨401, "Invalid credentials"⟩, none)
      | some account => (table, .banCheck account, none)
  | .banCheck account =>
      match account.banReason with
      | some reason => (table, .done ⟨403, "Account suspended: " ++ reason⟩, none)
      | none => (table, .verifyPassword account, none)
  | .verifyPassword account =>
      if !account.hashParses then (table, .done ⟨500, "Invalid stored hash"⟩, none)
      else if !account.passwordMatches req.password then
        (table, .record [req.failureKey, req.ipFailureKey] ⟨401, "Invalid credentials"⟩,
          some ⟨req.email, now, table.get req.failureKey⟩)
      else
        match account.totp with
        | none => (table, .reset [req.failureKey, req.ipFailureKey], none)
        | some secret => (table, .verifyTotp account secret, none)
  | .verifyTotp _ (usable, checkCurrent) =>
      match req.totpCode with
      | none => (table, .done ⟨401, "2FA required"⟩, none)
      | some code =>
          if !(code.length == 6 && code.all Char.isDigit) then
            (table, .record [req.failureKey] ⟨401, "Invalid 2FA code"⟩, none)
          else if !usable then (table, .done ⟨500, "2FA verification unavailable"⟩, none)
          else if !checkCurrent code then
            (table, .record [req.failureKey, req.ipFailureKey] ⟨401, "Invalid 2FA code"⟩,
              some ⟨req.email, now, table.get req.failureKey⟩)
          else (table, .reset [req.failureKey, req.ipFailureKey], none)
  | .record [] response => (table, .done response, none)
  | .record (identifier :: rest) response =>
      (recordLoginFailure table identifier now, .record rest response, none)
  | .reset [] => (table, .done ⟨200, "ok"⟩, none)
  | .reset (identifier :: rest) => (resetLoginFailure table identifier, .reset rest, none)
  | .done response => (table, .done response, none)

/-- The gateway's logins: the shared table, every request with its phase, and
the failed verifications so far. -/
structure Logins where
  failures : FailureTable
  requests : List (LoginRequest × Phase)
  log : List FailedVerification

/-- What the scheduler does next: a request arrives, or request `index` takes
its next step at time `now`. -/
inductive LoginEvent where
  | arrive (req : LoginRequest)
  | advance (index now : Nat)

def Logins.init : Logins := ⟨AssocMap.empty, [], []⟩

def Logins.step (g : Logins) : LoginEvent → Logins
  | .arrive req => { g with requests := g.requests ++ [(req, .accountLockout)] }
  | .advance index now =>
      match g.requests[index]? with
      | none => g
      | some (req, phase) =>
          let result := loginStep accounts isValidEmail g.failures req now phase
          ⟨result.1, g.requests.set index (req, result.2.1), g.log ++ result.2.2.toList⟩

def Logins.run (g : Logins) (events : List LoginEvent) : Logins :=
  events.foldl (Logins.step accounts isValidEmail) g

/-- A request served alone: its steps at the given times, with no step of
another request in between. -/
def serve (table : FailureTable) (req : LoginRequest) :
    Phase → List Nat → FailureTable × Phase × List FailedVerification
  | phase, [] => (table, phase, [])
  | phase, now :: times =>
      let result := loginStep accounts isValidEmail table req now phase
      let rest := serve result.1 req result.2.1 times
      (rest.1, rest.2.1, result.2.2.toList ++ rest.2.2)

/-- The requests one after another, each served alone at its own times, in
the scheduler's terms: it arrives, and only it moves until the next arrives. -/
def sequentialEvents : Nat → List (LoginRequest × List Nat) → List LoginEvent
  | _, [] => []
  | index, (req, times) :: rest =>
      LoginEvent.arrive req :: times.map (LoginEvent.advance index) ++ sequentialEvents (index + 1) rest

end Login

/-- A failed verification made while its email was locked out. -/
def FailedVerification.Locked (v : FailedVerification) : Prop := isLocked v.row v.time = true

instance (v : FailedVerification) : Decidable v.Locked := inferInstanceAs (Decidable (_ = _))

/-! ## A login served alone never verifies while locked -/

/-- A row that is not locked stays unlocked later: the lockout only ends. -/
theorem isLocked_of_le {row : Option (Nat × Nat)} {earlier later : Nat}
    (h : isLocked row earlier = false) (hLe : earlier ≤ later) : isLocked row later = false := by
  unfold isLocked at h ⊢
  cases row with
  | none => rfl
  | some entry =>
      obtain ⟨count, lastFailure⟩ := entry
      simp only [Bool.and_eq_false_iff, decide_eq_false_iff_not, Nat.not_lt] at h ⊢
      omega

/-- The phases between the account lockout check and the verifications: none
of them writes the table. -/
def Phase.Checked : Phase → Prop
  | .ipLockout | .lookUp | .banCheck _ | .verifyPassword _ | .verifyTotp _ _ => True
  | _ => False

/-- The phases after the verifications. -/
def Phase.Tail : Phase → Prop
  | .record _ _ | .reset _ | .done _ => True
  | _ => False

section Serve

variable {accounts : String → Option Account} {isValidEmail : String → Bool}

/-- After the verifications nothing is logged again. -/
theorem log_serve_of_tail {phase : Phase} (hTail : phase.Tail) (table : FailureTable)
    (req : LoginRequest) (times : List Nat) :
    (serve accounts isValidEmail table req phase times).2.2 = [] := by
  induction times generalizing table phase with
  | nil => rfl
  | cons now times ih =>
      have hStep : (loginStep accounts isValidEmail table req now phase).2.1.Tail ∧
          (loginStep accounts isValidEmail table req now phase).2.2 = none := by
        cases phase with
        | record identifiers response => cases identifiers <;> exact ⟨trivial, rfl⟩
        | reset identifiers => cases identifiers <;> exact ⟨trivial, rfl⟩
        | done response => exact ⟨trivial, rfl⟩
        | _ => exact hTail.elim
      simp only [serve, hStep.2, Option.toList_none, List.nil_append]
      exact ih hStep.1 _

/-- One step from a checked phase: the table is the same, and either the next
phase is checked or in the tail, and a logged failure carries the row and time
of this step. -/
theorem loginStep_of_checked {phase : Phase} (hChecked : phase.Checked) (table : FailureTable)
    (req : LoginRequest) (now : Nat) :
    let result := loginStep accounts isValidEmail table req now phase
    result.1 = table ∧ (result.2.1.Checked ∨ result.2.1.Tail) ∧
      ∀ v ∈ result.2.2, v = ⟨req.email, now, table.get req.failureKey⟩ := by
  cases phase with
  | ipLockout =>
      simp only [loginStep]
      split_ifs <;> simp [Phase.Checked, Phase.Tail]
  | lookUp =>
      simp only [loginStep]
      split <;> simp [Phase.Checked, Phase.Tail]
  | banCheck account =>
      simp only [loginStep]
      split <;> simp [Phase.Checked, Phase.Tail]
  | verifyPassword account =>
      simp only [loginStep]
      split_ifs
      · simp [Phase.Tail]
      · simp [Phase.Tail]
      · split <;> simp [Phase.Checked, Phase.Tail]
  | verifyTotp account secret =>
      obtain ⟨usable, checkCurrent⟩ := secret
      simp only [loginStep]
      split
      · simp [Phase.Tail]
      · split_ifs <;> simp [Phase.Tail]
  | _ => exact hChecked.elim

/-- From a checked phase whose email row was unlocked at `checkedAt`, a run at
times no earlier logs no failure made while locked: the row does not change
until the verifications. -/
theorem not_locked_serve_of_checked {phase : Phase} (hChecked : phase.Checked)
    {table : FailureTable} {req : LoginRequest} {checkedAt : Nat}
    (hUnlocked : isLocked (table.get req.failureKey) checkedAt = false) (times : List Nat)
    (hTimes : ∀ now ∈ times, checkedAt ≤ now) :
    ∀ v ∈ (serve accounts isValidEmail table req phase times).2.2, ¬v.Locked := by
  induction times generalizing phase with
  | nil => simp [serve]
  | cons now times ih =>
      obtain ⟨hTable, hNext, hFailed⟩ := @loginStep_of_checked accounts isValidEmail _
        hChecked table req now
      intro v hv
      simp only [serve] at hv
      rcases List.mem_append.mp hv with hHere | hLater
      · rw [hFailed v (Option.mem_toList.mp hHere)]
        simp [FailedVerification.Locked,
          isLocked_of_le hUnlocked (hTimes now List.mem_cons_self)]
      · rw [hTable] at hLater
        rcases hNext with hChecked' | hTail
        · exact ih hChecked' (fun t ht => hTimes t (List.mem_cons_of_mem now ht)) v hLater
        · rw [log_serve_of_tail hTail] at hLater
          cases hLater

/-- A login served alone at non-decreasing times never fails a verification
while its email is locked out: the row it checked first is the row it fails
against. -/
theorem not_locked_serve (table : FailureTable) (req : LoginRequest) {times : List Nat}
    (hSorted : times.Pairwise (· ≤ ·)) :
    ∀ v ∈ (serve accounts isValidEmail table req .accountLockout times).2.2, ¬v.Locked := by
  cases times with
  | nil => simp [serve]
  | cons now times =>
      have hLater : ∀ t ∈ times, now ≤ t := (List.pairwise_cons.mp hSorted).1
      intro v hv
      simp only [serve, loginStep] at hv
      have hDone : ∀ response, (Phase.done response).Tail := fun _ => trivial
      split_ifs at hv with hAllowed hLocked
      · rw [log_serve_of_tail (hDone _)] at hv
        cases hv
      · rw [log_serve_of_tail (hDone _)] at hv
        cases hv
      · exact not_locked_serve_of_checked (show Phase.ipLockout.Checked from trivial)
          (Bool.not_eq_true _ ▸ hLocked) times hLater v (by simpa using hv)

theorem run_advances {g : Logins} {index : Nat} {req : LoginRequest} {phase : Phase}
    (hAt : g.requests[index]? = some (req, phase)) (times : List Nat) :
    g.run accounts isValidEmail (times.map (LoginEvent.advance index)) =
      ⟨(serve accounts isValidEmail g.failures req phase times).1,
        g.requests.set index (req, (serve accounts isValidEmail g.failures req phase times).2.1),
        g.log ++ (serve accounts isValidEmail g.failures req phase times).2.2⟩ := by
  have hIndex : index < g.requests.length := (List.getElem?_eq_some_iff.mp hAt).1
  induction times generalizing g phase with
  | nil =>
      have hSet : g.requests.set index (req, phase) = g.requests := by
        rw [← (List.getElem?_eq_some_iff.mp hAt).2]
        exact List.set_getElem_self hIndex
      simp [Logins.run, serve, hSet]
  | cons now times ih =>
      let result := loginStep accounts isValidEmail g.failures req now phase
      let g' : Logins :=
        ⟨result.1, g.requests.set index (req, result.2.1), g.log ++ result.2.2.toList⟩
      have hStep : g.step accounts isValidEmail (.advance index now) = g' := by
        simp [Logins.step, hAt, g', result]
      have hAt' : g'.requests[index]? = some (req, result.2.1) := by
        simp [g', hIndex]
      have hRest := ih hAt' (by simpa [g'] using hIndex)
      simp only [Logins.run, List.map_cons, List.foldl_cons, hStep] at hRest ⊢
      rw [hRest]
      simp [g', serve, result, List.append_assoc]

theorem run_append (g : Logins) (first second : List LoginEvent) :
    g.run accounts isValidEmail (first ++ second) =
      (g.run accounts isValidEmail first).run accounts isValidEmail second := by
  simp [Logins.run, List.foldl_append]

/-- Logins that do not overlap, each at non-decreasing times, never fail a
verification while their email is locked out. -/
theorem not_locked_run_sequentialEvents {g : Logins} {index : Nat}
    (hLength : g.requests.length = index) (hLog : ∀ v ∈ g.log, ¬v.Locked)
    (logins : List (LoginRequest × List Nat)) (hSorted : ∀ login ∈ logins, login.2.Pairwise (· ≤ ·)) :
    ∀ v ∈ (g.run accounts isValidEmail (sequentialEvents index logins)).log, ¬v.Locked := by
  induction logins generalizing g index with
  | nil => exact hLog
  | cons login rest ih =>
      obtain ⟨req, times⟩ := login
      let arrived : Logins := { g with requests := g.requests ++ [(req, .accountLockout)] }
      have hAt : arrived.requests[index]? = some (req, .accountLockout) := by
        simp [arrived, ← hLength]
      have hServed := @run_advances accounts isValidEmail _ _ _ _ hAt times
      rw [sequentialEvents, List.cons_append, Logins.run, List.foldl_cons, ← Logins.run,
        run_append, show g.step accounts isValidEmail (.arrive req) = arrived from rfl, hServed]
      refine ih ?_ ?_ (fun l hl => hSorted l (List.mem_cons_of_mem _ hl))
      · simp [arrived, hLength]
      · intro v hv
        rcases List.mem_append.mp hv with hOld | hNew
        · exact hLog v hOld
        · exact not_locked_serve _ req (hSorted _ List.mem_cons_self) v hNew

end Serve

/-- From the empty table, logins served one after another, each at
non-decreasing times, never fail a verification while their email is locked
out: only overlapping logins get past the lockout. -/
theorem login_sequential (accounts : String → Option Account) (isValidEmail : String → Bool)
    (logins : List (LoginRequest × List Nat)) (hSorted : ∀ login ∈ logins, login.2.Pairwise (· ≤ ·)) :
    ∀ v ∈ (Logins.init.run accounts isValidEmail (sequentialEvents 0 logins)).log, ¬ v.Locked :=
  not_locked_run_sequentialEvents rfl (fun _ h => absurd h List.not_mem_nil) logins hSorted

/-- The six wrong-password logins of the race, served one after another: none
fails while locked out. -/
theorem login_sequential_six :
    (∀ login ∈ (["1", "2", "3", "4", "5", "6"].map fun ip =>
        ((⟨"a@b.io", ip, "guess", none, true⟩ : LoginRequest), [0, 0, 0, 0, 0, 0])),
      login.2.Pairwise (· ≤ ·)) ∧
    ∀ v ∈ (Logins.init.run (fun _ => some ⟨none, true, fun _ => false, none⟩) (fun _ => true)
      (sequentialEvents 0 (["1", "2", "3", "4", "5", "6"].map fun ip =>
        (⟨"a@b.io", ip, "guess", none, true⟩, [0, 0, 0, 0, 0, 0])))).log, ¬ v.Locked :=
  ⟨by decide, login_sequential _ _ _ (by decide)⟩

/-! ## Concurrent logins -/

/-- The race: one login for each address, all for one email and password,
arrive; each checks the lockout rows, looks the user up and checks the ban;
only then does each verify and record its failures, in turn. Every step is at
time `now`. -/
def raceEvents (email password : String) (ips : List String) (now : Nat) : List LoginEvent :=
  ips.map (fun ip => .arrive ⟨email, ip, password, none, true⟩) ++
    ((List.range ips.length).flatMap fun i => (List.replicate 4 now).map (LoginEvent.advance i)) ++
    ((List.range ips.length).flatMap fun i => (List.replicate 4 now).map (LoginEvent.advance i))

theorem failureKey_ne_ipFailureKey (req other : LoginRequest) : req.failureKey ≠ other.ipFailureKey := by
  intro h
  have hHead := congrArg (fun key => key.toList.head?) h
  simp [LoginRequest.failureKey, LoginRequest.ipFailureKey] at hHead

theorem get_recordLoginFailure_self (table : FailureTable) (identifier : String) (now : Nat) :
    (recordLoginFailure table identifier now).get identifier =
      some (((table.get identifier).map Prod.fst).getD 0 + 1, now) := by
  unfold recordLoginFailure
  cases table.get identifier <;> simp

theorem get_recordLoginFailure_of_ne (table : FailureTable) {identifier other : String}
    (h : other ≠ identifier) (now : Nat) :
    (recordLoginFailure table identifier now).get other = table.get other := by
  unfold recordLoginFailure
  cases table.get identifier <;> simp [h]

/-- The request the race sends from an address. -/
abbrev raceRequest (email password ip : String) : LoginRequest := ⟨email, ip, password, none, true⟩

/-- The first half of the race after `count` logins: those wait at their
password check, the others have not started, and nothing is written. -/
structure RaceChecking (email password : String) (account : Account) (ips : List String)
    (g : Logins) (count : Nat) : Prop where
  failures : g.failures = AssocMap.empty
  log : g.log = []
  requests : ∀ i, g.requests[i]? = ips[i]?.map fun ip =>
    (raceRequest email password ip, if i < count then .verifyPassword account else .accountLockout)

/-- The second half after `count` logins: those have failed and recorded, one
failure each for the email, and the others wait at their password check. -/
structure RaceFailing (email password : String) (account : Account) (ips : List String)
    (now : Nat) (g : Logins) (count : Nat) : Prop where
  row : g.failures.get ("email:" ++ email) = if count = 0 then none else some (count, now)
  log : g.log = (List.range count).map fun i => ⟨email, now, if i = 0 then none else some (i, now)⟩
  requests : ∀ i, g.requests[i]? = ips[i]?.map fun ip =>
    (raceRequest email password ip,
      if i < count then .done ⟨401, "Invalid credentials"⟩ else .verifyPassword account)

section Race

variable {accounts : String → Option Account} {isValidEmail : String → Bool}
  {email password : String} {account : Account} (ips : List String) (now : Nat)

variable (hAccount : accounts email = some account) (hBan : account.banReason = none)
  (hHash : account.hashParses = true) (hWrong : account.passwordMatches password = false)
  (hEmail : isValidEmail email = true) (hInput : isReasonablePasswordInput password = true)

include hAccount hBan hEmail hInput in
/-- On an empty table the four checking steps take a login to its password
check, writing nothing. -/
theorem serve_checks (ip : String) :
    serve accounts isValidEmail AssocMap.empty (raceRequest email password ip) .accountLockout
      (List.replicate 4 now) = (AssocMap.empty, .verifyPassword account, []) := by
  simp [serve, loginStep, isLocked, hAccount, hBan, hEmail, hInput]

include hHash hWrong in
/-- A wrong password fails against the row it finds and records one failure
for the email and one for the address. -/
theorem serve_wrong_password (table : FailureTable) (ip : String) :
    serve accounts isValidEmail table (raceRequest email password ip) (.verifyPassword account)
        (List.replicate 4 now) =
      (recordLoginFailure (recordLoginFailure table (raceRequest email password ip).failureKey now)
          (raceRequest email password ip).ipFailureKey now,
        .done ⟨401, "Invalid credentials"⟩,
        [⟨email, now, table.get (raceRequest email password ip).failureKey⟩]) := by
  simp [serve, loginStep, hHash, hWrong]

omit hAccount hBan hHash hWrong hEmail hInput

theorem run_arrivals (g : Logins) :
    g.run accounts isValidEmail (ips.map fun ip => .arrive (raceRequest email password ip)) =
      { g with requests := g.requests ++ ips.map fun ip => (raceRequest email password ip, .accountLockout) } := by
  induction ips generalizing g with
  | nil => simp [Logins.run]
  | cons ip rest ih =>
      rw [List.map_cons, Logins.run, List.foldl_cons, ← Logins.run, ih]
      simp [Logins.step]

/-- Replacing the phase at the position `count` moves the boundary by one. -/
theorem getElem?_set_boundary {requests : List (LoginRequest × Phase)} {count : Nat}
    {phaseBefore phaseAfter : Phase}
    (h : ∀ i, requests[i]? = ips[i]?.map fun ip =>
      (raceRequest email password ip, if i < count then phaseBefore else phaseAfter))
    {ip : String} (hIp : ips[count]? = some ip) (i : Nat) :
    (requests.set count (raceRequest email password ip, phaseBefore))[i]? =
      ips[i]?.map fun ip => (raceRequest email password ip, if i < count + 1 then phaseBefore else phaseAfter) := by
  have hPair : ∀ j c : Nat, (fun ip => (raceRequest email password ip,
      if j < c then phaseBefore else phaseAfter)) = fun ip =>
      if j < c then (raceRequest email password ip, phaseBefore)
      else (raceRequest email password ip, phaseAfter) := by
    intro j c
    funext ip
    split <;> rfl
  rw [hPair]
  exact Positions.getElem?_set_boundary (fun j => by rw [h j, hPair]) hIp i

include hAccount hBan hEmail hInput in
theorem RaceChecking.advance {g : Logins} {count : Nat} (h : RaceChecking email password account ips g count)
    (hCount : count < ips.length) :
    RaceChecking email password account ips
      (g.run accounts isValidEmail ((List.replicate 4 now).map (LoginEvent.advance count)))
      (count + 1) := by
  obtain ⟨ip, hIp⟩ : ∃ ip, ips[count]? = some ip := ⟨ips[count], List.getElem?_eq_getElem hCount⟩
  have hAt : g.requests[count]? = some (raceRequest email password ip, .accountLockout) := by
    simp [h.requests count, hIp]
  rw [run_advances hAt, h.failures, serve_checks now hAccount hBan hEmail hInput]
  exact ⟨rfl, by simp [h.log], getElem?_set_boundary ips h.requests hIp⟩

include hHash hWrong in
theorem RaceFailing.advance {g : Logins} {count : Nat} (h : RaceFailing email password account ips now g count)
    (hCount : count < ips.length) :
    RaceFailing email password account ips now
      (g.run accounts isValidEmail ((List.replicate 4 now).map (LoginEvent.advance count)))
      (count + 1) := by
  obtain ⟨ip, hIp⟩ : ∃ ip, ips[count]? = some ip := ⟨ips[count], List.getElem?_eq_getElem hCount⟩
  have hAt : g.requests[count]? = some (raceRequest email password ip, .verifyPassword account) := by
    simp [h.requests count, hIp]
  have hKey : (raceRequest email password ip).failureKey = "email:" ++ email := rfl
  rw [run_advances hAt, serve_wrong_password now hHash hWrong]
  refine ⟨?_, ?_, getElem?_set_boundary ips h.requests hIp⟩
  · rw [get_recordLoginFailure_of_ne _ (hKey ▸ failureKey_ne_ipFailureKey _ _), ← hKey,
      get_recordLoginFailure_self, hKey, h.row]
    cases count <;> simp
  · simp only [h.log, hKey, h.row, List.range_succ, List.map_append, List.map_cons, List.map_nil]

include hAccount hBan hEmail hInput in
theorem RaceChecking.run {g : Logins} (h : RaceChecking email password account ips g 0)
    {count : Nat} (hCount : count ≤ ips.length) :
    RaceChecking email password account ips
      (g.run accounts isValidEmail
        ((List.range count).flatMap fun i => (List.replicate 4 now).map (LoginEvent.advance i)))
      count := by
  induction count with
  | zero => simpa [Logins.run] using h
  | succ count ih =>
      rw [List.range_succ, List.flatMap_append, run_append, List.flatMap_singleton]
      exact RaceChecking.advance ips now hAccount hBan hEmail hInput (ih (by omega)) (by omega)

include hHash hWrong in
theorem RaceFailing.run {g : Logins} (h : RaceFailing email password account ips now g 0)
    {count : Nat} (hCount : count ≤ ips.length) :
    RaceFailing email password account ips now
      (g.run accounts isValidEmail
        ((List.range count).flatMap fun i => (List.replicate 4 now).map (LoginEvent.advance i)))
      count := by
  induction count with
  | zero => simpa [Logins.run] using h
  | succ count ih =>
      rw [List.range_succ, List.flatMap_append, run_append, List.flatMap_singleton]
      exact RaceFailing.advance ips now hHash hWrong (ih (by omega)) (by omega)

omit hAccount hBan hHash hWrong hEmail hInput in
/-- Once every login waits at its password check, the second half starts. -/
theorem RaceChecking.failing {g : Logins} (h : RaceChecking email password account ips g ips.length) :
    RaceFailing email password account ips now g 0 := by
  refine ⟨by simp [h.failures], by simp [h.log], fun i => ?_⟩
  rw [h.requests i]
  cases hIp : ips[i]? with
  | none => rfl
  | some ip =>
      have hi : i < ips.length := (List.getElem?_eq_some_iff.mp hIp).1
      simp [hi]

/-- The failures of the race in order: the `i`-th finds `i` failures recorded,
and from the fifth on that row is a lockout. -/
theorem length_filter_locked_race (email : String) (now count : Nat) :
    (((List.range count).map fun i =>
        (⟨email, now, if i = 0 then none else some (i, now)⟩ : FailedVerification)).filter
      fun v => decide v.Locked).length = count - maxLoginAttempts := by
  induction count with
  | zero => rfl
  | succ count ih =>
      have hLast : decide (FailedVerification.Locked
          ⟨email, now, if count = 0 then none else some (count, now)⟩) =
          decide (maxLoginAttempts ≤ count) := by
        cases count with
        | zero => rfl
        | succ count => simp [FailedVerification.Locked, isLocked, lockoutDurationMinutes]
      rw [List.range_succ, List.map_append, List.filter_append, List.length_append, ih,
        List.map_singleton, List.filter_singleton, hLast]
      by_cases hFifth : maxLoginAttempts ≤ count
      · simp only [hFifth, decide_true, cond_true, List.length_singleton]
        simp only [maxLoginAttempts] at hFifth ⊢
        omega
      · simp only [hFifth, decide_false, cond_false, List.length_nil]
        simp only [maxLoginAttempts] at hFifth ⊢
        omega

include hAccount hBan hHash hWrong hEmail hInput in
/-- For any number of concurrent logins for one email with a wrong password,
the schedule in which every login passes the lockout check before any records
its failure lets all but the first `MAX_LOGIN_ATTEMPTS` of them fail a
verification while the email is locked out. -/
theorem login_race :
    ((Logins.init.run accounts isValidEmail (raceEvents email password ips now)).log.filter
      fun v => decide v.Locked).length = ips.length - maxLoginAttempts := by
  have hStart : RaceChecking email password account ips
      (Logins.init.run accounts isValidEmail
        (ips.map fun ip => .arrive (raceRequest email password ip))) 0 := by
    rw [run_arrivals]
    exact ⟨rfl, rfl, fun i => by simp [Logins.init]⟩
  have hChecked := hStart.run ips now hAccount hBan hEmail hInput (Nat.le_refl _)
  have hFailed := @RaceFailing.run accounts isValidEmail email password account ips now hHash hWrong _
    (RaceChecking.failing ips now hChecked) _ (Nat.le_refl _)
  rw [raceEvents, run_append, run_append, hFailed.log]
  exact length_filter_locked_race email now ips.length

end Race

/-- Six logins for one email with a wrong password, from six addresses: the
sixth fails its verification with the email locked out. -/
theorem login_race_six :
    ((Logins.init.run (fun _ => some ⟨none, true, fun _ => false, none⟩) (fun _ => true)
        (raceEvents "a@b.io" "guess" ["1", "2", "3", "4", "5", "6"] 0)).log.filter
      fun v => decide v.Locked).length = 1 :=
  (@login_race (fun _ => some ⟨none, true, fun _ => false, none⟩) (fun _ => true) "a@b.io" "guess"
    ⟨none, true, fun _ => false, none⟩ ["1", "2", "3", "4", "5", "6"] 0
    rfl rfl rfl rfl rfl (by decide)).trans (by decide)

end Wavry.Gateway
