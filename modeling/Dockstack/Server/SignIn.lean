import Dockstack.Base.Machine
import Dockstack.Server.LimiterLog

/-!
# Concurrent password sign-ins

`signInWithPassword` of `internal/server/api/auth/auth.go:122–156` under the guard of
`ratelimit.go:122–158`. A request takes its steps one by one and other requests may
move in between: the guard's two checks lock one limiter each, the lookup and the
Argon2 verification run outside any lock, and so do the two limiter calls of
`recordFailure` and of `clear` between each other. Store answers are in the labels;
limit keys are the digests that `signInLimitKey` returns.
-/

namespace Dockstack.Server

open Dockstack.Base
open Dockstack.Base.WindowLog

/-- What `signInWithPassword` reads of a request. -/
structure SignInRequest where
  identifier : String
  password : String
  clientIP : String

/-- The errors it answers, with their texts; `wait` is the time in the 429 text. -/
inductive SignInError where
  | badRequest (msg : String)
  | tooManyRequests (msg : String) (wait : Int)
  | internal (msg : String)
  | unauthorized (msg : String)

/-- Where a request stands between two atomic steps; `done` carries its answer. -/
inductive SignInPhase where
  | start
  | ipChecked
  | idChecked
  | looked (user : Option String)
  | failed
  | failedIP
  | verified (user : String)
  | clearedIP (user : String)
  | cleared (user : String)
  | done (res : Except SignInError String)

/-- The atomic steps of a request; `none` of a store answer is a store error. -/
inductive SignInAction where
  | validate
  | checkIP
  | checkID
  | lookup (res : Option (Option String))
  | verify (res : Option Bool)
  | failIP
  | failID
  | resetIP
  | resetID
  | createSession (ok : Bool)
  deriving DecidableEq

/-- One step of the system: a request, an action, the clock reading of the action. -/
structure SignInLabel where
  req : Nat
  now : Int
  action : SignInAction
  deriving DecidableEq

/-- A password verification that took place, for the log. -/
structure Verification where
  key : String
  now : Int
  ok : Bool
  deriving DecidableEq

/-- The guard's two limiters, the phase of every request, and the verifications so far,
newest first. -/
structure SignInState where
  clock : Int
  ip : BruteLimiter
  id : BruteLimiter
  phase : Nat → SignInPhase
  log : List Verification

/-- The requests of a run and the key function `signInLimitKey`; `ratelimit.go:160–163`. -/
structure SignInEnv where
  request : Nat → SignInRequest
  signInLimitKey : String → String → String
  missingMsg : String

namespace SignInEnv

variable (env : SignInEnv)

/-- `auth.go:126`. -/
def ipKey (i : Nat) : String := env.signInLimitKey "ip" (env.request i).clientIP

/-- `auth.go:127`. -/
def idKey (i : Nat) : String := env.signInLimitKey "id" (env.request i).identifier

/-- `auth.go:123`. -/
def missing (i : Nat) : Bool :=
  (env.request i).identifier == "" || (env.request i).password == ""

end SignInEnv

/-- `signInGuard.init`, before any request; `ratelimit.go:128–133`. -/
def SignInState.init : SignInState where
  clock := zeroTime
  ip := newBruteLimiter signInIPMaxFailures signInFailureWindow signInLockout
  id := newBruteLimiter signInIdentifierMaxFailures signInFailureWindow signInLockout
  phase _ := .start
  log := []

/-- Move one request. -/
def SignInState.setPhase (s : SignInState) (i : Nat) (p : SignInPhase) : SignInState :=
  { s with phase := Function.update s.phase i p }

/-- `signInTooManyRequests`; `ratelimit.go:165–167`. -/
def signInTooManyRequests (wait : Int) : SignInError :=
  .tooManyRequests "Too many failed sign-in attempts." wait

/-- The action of request `i` at the state's clock, `none` when it is not its next one;
`auth.go:122–156`. -/
def SignInState.act (env : SignInEnv) (s : SignInState) (i : Nat) (a : SignInAction) :
    Option SignInState :=
  match s.phase i, a with
  | .start, .validate =>
    if env.missing i then some (s.setPhase i (.done (.error (.badRequest env.missingMsg))))
    else none
  | .start, .checkIP =>
    if env.missing i then none
    else
      let wait := s.ip.blocked (env.ipKey i) s.clock
      if 0 < wait then some (s.setPhase i (.done (.error (signInTooManyRequests wait))))
      else some (s.setPhase i .ipChecked)
  | .ipChecked, .checkID =>
    let wait := s.id.blocked (env.idKey i) s.clock
    if 0 < wait then some (s.setPhase i (.done (.error (signInTooManyRequests wait))))
    else some (s.setPhase i .idChecked)
  | .idChecked, .lookup none =>
    some (s.setPhase i (.done (.error (.internal "failed to look up user"))))
  | .idChecked, .lookup (some user) => some (s.setPhase i (.looked user))
  -- an unknown user costs a dummy verification whose result is not read
  | .looked none, .verify _ =>
    some { s.setPhase i .failed with log := ⟨env.idKey i, s.clock, false⟩ :: s.log }
  | .looked (some _), .verify none =>
    some (s.setPhase i (.done (.error (.internal "failed to verify password"))))
  | .looked (some _), .verify (some false) =>
    some { s.setPhase i .failed with log := ⟨env.idKey i, s.clock, false⟩ :: s.log }
  | .looked (some user), .verify (some true) =>
    some { s.setPhase i (.verified user) with log := ⟨env.idKey i, s.clock, true⟩ :: s.log }
  | .failed, .failIP =>
    some { s.setPhase i .failedIP with ip := (s.ip.fail (env.ipKey i) s.clock).2 }
  | .failedIP, .failID =>
    some { s.setPhase i (.done (.error (.unauthorized "Invalid credentials"))) with
      id := (s.id.fail (env.idKey i) s.clock).2 }
  | .verified user, .resetIP =>
    some { s.setPhase i (.clearedIP user) with ip := s.ip.reset (env.ipKey i) }
  | .clearedIP user, .resetID =>
    some { s.setPhase i (.cleared user) with id := s.id.reset (env.idKey i) }
  | .cleared user, .createSession true => some (s.setPhase i (.done (.ok user)))
  | .cleared _, .createSession false =>
    some (s.setPhase i (.done (.error (.internal "failed to create session"))))
  | _, _ => none

/-- One step in non-decreasing time. -/
def signInStep (env : SignInEnv) (s : SignInState) (l : SignInLabel) : Option SignInState :=
  if l.now < s.clock then none else { s with clock := l.now }.act env l.req l.action

end Dockstack.Server
