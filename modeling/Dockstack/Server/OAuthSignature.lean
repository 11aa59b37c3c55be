import Dockstack.Auth.SessionRuns

/-!
# Signed OAuth states

`internal/server/api/auth/oauth.go:44–62` signs and verifies the state parameter of an OAuth flow
by itself, next to the store's `SignToken` and `VerifySignature` (`internal/auth/session.go`). One
compares the part after the last dot, the other the whole string; the encoded MAC has no dot, so
under one secret they accept the same strings.
-/

namespace Dockstack.Server

open Dockstack.Base Dockstack.Auth

variable (hmac : Bytes → Bytes → Bytes) (secret : Bytes)

/-- `NewStore`, as far as signatures go; `session.go:59–84`. -/
def newStore (sha256 : Bytes → Bytes) (sessionTTL : Int) : Store :=
  ⟨hmac secret, sha256, sessionTTL⟩

/-- `signOAuthState`; `oauth.go:44–50`. `token` is the new UUID. -/
def signOAuthState (token : Bytes) : Bytes := token ++ 46 :: rawURLEncode (hmac secret token)

/-- `verifyOAuthState`; `oauth.go:52–62`. -/
def verifyOAuthState (state : Bytes) : Bool :=
  match lastIndex 46 state with
  | none => false
  | some idx =>
    let token := state.take idx
    let sig := state.drop (idx + 1)
    rawURLEncode (hmac secret token) == sig

/-- The states that are accepted are the signed ones. -/
theorem verifyOAuthState_eq_true {state : Bytes} : verifyOAuthState hmac secret state = true ↔
    ∃ token, state = signOAuthState hmac secret token := by
  unfold verifyOAuthState
  constructor
  · intro h
    split at h
    · contradiction
    · next idx hidx =>
      refine ⟨state.take idx, ?_⟩
      rw [signOAuthState, eq_of_beq h]
      exact eq_of_lastIndex hidx
  · rintro ⟨token, rfl⟩
    have hidx : lastIndex 46 (signOAuthState hmac secret token) = some token.length :=
      lastIndex_append_cons token (dot_notMem_rawURLEncode _)
    simp only [hidx]
    simp only [signOAuthState, List.take_left, List.drop_append, List.drop_of_length_le,
      Nat.add_sub_cancel_left, Nat.le_add_right, List.nil_append, List.drop_succ_cons,
      List.drop_zero, beq_self_eq_true]

/-- `VerifySignature` succeeds exactly on the signed tokens, with the token that was signed, and
`verifyOAuthState` accepts the same strings. -/
theorem verifySignature_iff_verifyOAuthState_iff (sha256 : Bytes → Bytes) (sessionTTL : Int)
    (s : Bytes) :
    (∀ t, (newStore hmac secret sha256 sessionTTL).verifySignature s = some t ↔
      s = (newStore hmac secret sha256 sessionTTL).signToken t) ∧
    (verifyOAuthState hmac secret s = true ↔
      ((newStore hmac secret sha256 sessionTTL).verifySignature s).isSome = true) := by
  have hiff (t : Bytes) : (newStore hmac secret sha256 sessionTTL).verifySignature s = some t ↔
      s = (newStore hmac secret sha256 sessionTTL).signToken t := Store.verifySignature_eq_some _
  refine ⟨hiff, ?_⟩
  rw [verifyOAuthState_eq_true, Option.isSome_iff_exists]
  exact exists_congr fun t ↦ (hiff t).symm

/-- A token with dots in it is given back whole. -/
example : (newStore (fun _ m ↦ m) [] id 0).verifySignature
    ((newStore (fun _ m ↦ m) [] id 0).signToken [46, 97, 46]) = some [46, 97, 46] := by
  decide

end Dockstack.Server
