import TurbineProxy.AuthCache

/-!
# Who may use the dashboard

`login`, `logout`, `refresh_token`, the middleware in front of the protected routes and the sweeper. A
login takes the lock of the attempt table twice: once to check, and again to count a failure; so it is
two steps, and what happens in between is any of the other steps. The digest of a text is a parameter.

Instants are in nanoseconds. The marks of `log` are not part of the source: they record what happened.
-/

namespace TurbineProxy

/-- `TokenRole` -/
inductive TokenRole : Type where
  | admin
  | readOnly
  deriving DecidableEq

/-- `TokenEntry` -/
structure TokenEntry where
  /-- `none`: never expires -/
  expiresAt : Option Nat
  role : TokenRole
  deriving DecidableEq

/-- The settings of the dashboard. -/
structure DashboardConfig where
  username : Str
  password : Str
  readonlyUsername : Str
  readonlyPassword : Str
  /-- 0: never expires -/
  tokenTtlSecs : UInt64
  /-- 0: no limit -/
  loginMaxAttempts : UInt32
  deriving DecidableEq

/-- A login as the handler sees it: where it comes from, and what it claims. -/
structure LoginRequest where
  /-- the address it comes from -/
  ip : Str
  username : Str
  password : Str
  deriving DecidableEq

/-- The methods that the middleware tells apart. -/
inductive HttpMethod : Type where
  | get | head | options
  /-- POST, PUT, DELETE and all others -/
  | other
  deriving DecidableEq

/-- What happened, as far as it bears on who may use which token, and on the failures of an address. -/
inductive AuthMark : Type where
  /-- a login was given a token -/
  | loggedIn (token : Str) (req : LoginRequest) (expiresAt : Option Nat)
  /-- a token was replaced by another one -/
  | refreshed (old new : Str) (expiresAt : Option Nat)
  /-- a token was given back -/
  | loggedOut (token : Str)
  /-- the middleware let a request pass; as an administrator, if its method asks for one -/
  | admitted (token : Str) (asAdmin : Bool) (now : Nat)
  /-- the credentials of a login were wrong -/
  | failed (ip : Str) (now : Nat)
  deriving DecidableEq

/-- The tables, the logins between their two steps, and what happened, the latest first. -/
structure AuthWorld where
  /-- `tokens`, by hash -/
  tokens : Str → Option TokenEntry
  /-- `rate_limits`: failed attempts, and when their window began -/
  rateLimits : Str → Option (UInt32 × Nat)
  /-- the logins that have passed the check -/
  pending : List LoginRequest
  log : List AuthMark

/-- At start-up nobody is logged in and no address has failed. -/
def AuthWorld.start : AuthWorld := ⟨fun _ => none, fun _ => none, [], []⟩

/-- `Duration::from_secs(60)` -/
def minute : Nat := 60 * 10 ^ 9

/-- What is done to the tables. -/
inductive AuthEvent : Type where
  /-- a login arrives and its address is checked -/
  | checkAttempts (req : LoginRequest) (now : Nat)
  /-- a login that has passed the check compares its credentials; a token may be made for it -/
  | checkCredentials (req : LoginRequest) (now : Nat) (token : Str)
  /-- a request on a protected route -/
  | request (method : HttpMethod) (path token : Str) (now : Nat)
  /-- `logout`, of this token -/
  | logout (token : Str)
  /-- `refresh_token`; a new token may be made -/
  | refresh (old new : Str) (now later : Nat)
  /-- the sweeper -/
  | sweep (now : Nat)

/-- A byte in hexadecimal, `{:02x}` -/
def hexByte (b : UInt8) : Str := [Nat.digitChar (b.toNat / 16), Nat.digitChar (b.toNat % 16)]

section Handlers

variable (digest : Bytes → Bytes) (cfg : DashboardConfig)

/-- `token_hash` -/
def tokenHash (raw : Str) : Str := (digest (toUtf8 raw)).flatMap hexByte

/-- `ct_eq_str` -/
def ctEqStr (a b : Str) : Bool := digest (toUtf8 a) == digest (toUtf8 b)

/-- Credentials are configured. -/
def DashboardConfig.authEnabled (cfg : DashboardConfig) : Bool :=
  !(cfg.username.isEmpty || cfg.password.isEmpty)

/-- `make_entry`; adding the time to live may panic. -/
def makeEntry (role : TokenRole) (now : Nat) : Option TokenEntry :=
  if 0 < cfg.tokenTtlSecs then
    (instantAdd now (cfg.tokenTtlSecs.toNat * 10 ^ 9)).map fun exp => ⟨some exp, role⟩
  else some ⟨none, role⟩

/-- The entry of an address after the check, and whether the login goes on. -/
def checkEntry (entry : Option (UInt32 × Nat)) (now : Nat) : (UInt32 × Nat) × Bool :=
  let entry := entry.getD (0, now)
  -- reset counter if window has elapsed
  let entry := if minute < now - entry.2 then (0, now) else entry
  (entry, entry.1 < cfg.loginMaxAttempts)

/-- The entry of an address after a failure. -/
def countFailure (entry : Option (UInt32 × Nat)) (now : Nat) : UInt32 × Nat :=
  let entry := entry.getD (0, now)
  (entry.1 + 1, entry.2)

/-- The role of the credentials. -/
def roleOf (req : LoginRequest) : Option TokenRole :=
  let isAdmin := ctEqStr digest req.username cfg.username && ctEqStr digest req.password cfg.password
  let isReadonly := !cfg.readonlyUsername.isEmpty && ctEqStr digest req.username cfg.readonlyUsername &&
    ctEqStr digest req.password cfg.readonlyPassword
  if isAdmin then some .admin else if isReadonly then some .readOnly else none

namespace AuthWorld

variable (w : AuthWorld)

/-- The first half of `login`. -/
def checkAttempts (req : LoginRequest) (now : Nat) : AuthWorld :=
  if 0 < cfg.loginMaxAttempts then
    let (entry, goesOn) := checkEntry cfg (w.rateLimits req.ip) now
    { w with
      rateLimits := Function.update w.rateLimits req.ip (some entry)
      pending := if goesOn then req :: w.pending else w.pending }
  else { w with pending := req :: w.pending }

/-- A new token for a login, if its entry can be made. -/
def issue (req : LoginRequest) (token : Str) (role : TokenRole) (now : Nat) : AuthWorld :=
  match makeEntry cfg role now with
  | some entry =>
    { w with
      tokens := Function.update w.tokens (tokenHash digest token) (some entry)
      log := .loggedIn token req entry.expiresAt :: w.log }
  | none => w

/-- The second half of `login`. -/
def checkCredentials (req : LoginRequest) (now : Nat) (token : Str) : AuthWorld :=
  let w := { w with pending := w.pending.erase req }
  if !cfg.authEnabled then w.issue digest cfg req token .admin now
  else
    match roleOf digest cfg req with
    | some role => w.issue digest cfg req token role now
    | none =>
      { w with
        rateLimits := if 0 < cfg.loginMaxAttempts then
            Function.update w.rateLimits req.ip (some (countFailure (w.rateLimits req.ip) now))
          else w.rateLimits
        log := .failed req.ip now :: w.log }

/-- What `auth_middleware` answers. -/
inductive Verdict : Type where
  | unauthorized
  | forbidden
  /-- `next.run` -/
  | passed
  deriving DecidableEq

/-- The method changes something, and is not that of a logout. -/
def asksForAdmin (method : HttpMethod) (path : Str) : Bool :=
  method == .other && path != "/api/logout".toList

/-- `auth_middleware` -/
def authMiddleware (method : HttpMethod) (path token : Str) (now : Nat) : Verdict :=
  if !cfg.authEnabled then .passed
  else
    let role := (w.tokens (tokenHash digest token)).bind fun entry =>
      if entry.expiresAt.any (· ≤ now) then none else some entry.role
    match role with
    | none => .unauthorized
    | some .readOnly => if asksForAdmin method path then .forbidden else .passed
    | some .admin => .passed

/-- A request on a protected route. -/
def request (method : HttpMethod) (path token : Str) (now : Nat) : AuthWorld :=
  if w.authMiddleware digest cfg method path token now = .passed then
    { w with log := .admitted token (asksForAdmin method path) now :: w.log }
  else w

/-- `logout` -/
def logout (token : Str) : AuthWorld :=
  { w with
    tokens := Function.update w.tokens (tokenHash digest token) none
    log := .loggedOut token :: w.log }

/-- `refresh_token`: the table stays locked; the clock is read twice. -/
def refreshToken (old new : Str) (now later : Nat) : AuthWorld :=
  match w.tokens (tokenHash digest old) with
  | none => w
  | some entry =>
    let w := { w with tokens := Function.update w.tokens (tokenHash digest old) none }
    -- reject if expired
    if entry.expiresAt.any (· < now) then w
    else
      match makeEntry cfg entry.role later with
      | some fresh =>
        { w with
          tokens := Function.update w.tokens (tokenHash digest new) (some fresh)
          log := .refreshed old new fresh.expiresAt :: w.log }
      | none => w

/-- The sweeper: an instant before the first one cannot be represented. -/
def sweep (now : Nat) : AuthWorld :=
  let cutoff := if 5 * minute ≤ now then now - 5 * minute else now
  { w with
    tokens := fun hash => (w.tokens hash).filter fun entry => entry.expiresAt.all (now < ·)
    rateLimits := fun ip => (w.rateLimits ip).filter fun entry => cutoff < entry.2 }

/-- Perform an event; a login that has not passed its first check cannot take the second one. -/
def step (w : AuthWorld) : AuthEvent → Option AuthWorld
  | .checkAttempts req now => some (w.checkAttempts cfg req now)
  | .checkCredentials req now token =>
    if req ∈ w.pending then some (w.checkCredentials digest cfg req now token) else none
  | .request method path token now => some (w.request digest cfg method path token now)
  | .logout token => some (w.logout digest token)
  | .refresh old new now later => some (w.refreshToken digest cfg old new now later)
  | .sweep now => some (w.sweep now)

end AuthWorld

end Handlers

end TurbineProxy
