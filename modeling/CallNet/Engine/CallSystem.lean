import CallNet.Engine.SipServer

/-!
# The running server

All INVITEs being handled, and the call log they share.  Between any two effects of one
call another call may go on, the users and the rate book may change, and an established
leg may be torn down, which runs the handlers its call installed.
-/

namespace CallNet

/-- An INVITE that arrived: what has happened, what is left to do, and which of its
    handlers have run, by the position of the event that installed them. -/
structure Session where
  req : Request
  history : History
  rest : CallProg Unit
  fired : List Nat

structure CallSystem where
  sessions : List Session
  store : CallStore

def CallSystem.init : CallSystem := ⟨[], .init⟩

/-- What happens next. -/
inductive CallAct where
  | invite (req : Request)
  /-- The next effect of a session is performed and answered. -/
  | proceed (i : Nat) (env : CallEnv) (answers : (e : Effect) → e.Answer)
  /-- A leg of a session is torn down, and the handler that the `n`-th event of the session
      installed on it runs at the time `now`. -/
  | teardown (i n : Nat) (env : CallEnv) (now : String)

/-- The call ids a session drew. -/
def callIds (h : History) : List String :=
  h.filterMap fun
    | ⟨.randomUUID, callId⟩ => some callId
    | _ => none

/-- A UUID that some session drew before. -/
def CallSystem.isRepeated (s : CallSystem) : Prog.Event effects → Bool
  | ⟨.randomUUID, callId⟩ => s.sessions.any fun session => (callIds session.history).contains callId
  | _ => false

/-- What an effect does to the call log. -/
def CallStore.perform (s : CallStore) (env : CallEnv) : Effect → CallStore
  | .logCall data => s.logCall env data
  | .updateCall callId updates => s.updateCall env callId updates
  | _ => s

/-- What a handler of a leg's `destroy` event does to the call log. -/
def CallStore.onDestroy (s : CallStore) (env : CallEnv) (now : String) : DestroyAct → CallStore
  | .endCall callId =>
    s.updateCall env callId { status := some .ended, endTime := some (some now) }
  | _ => s

/-- The handler a session's `n`-th event installed, if it has not run. -/
def Session.handler (session : Session) (n : Nat) : Option (List DestroyAct) :=
  match session.history[n]? with
  | some ⟨.onDestroy _ acts, _⟩ => if n ∈ session.fired then none else some acts
  | _ => none

/-- The session after its next effect. -/
def Session.proceed (session : Session) (answers : (e : Effect) → e.Answer) :
    Option (Effect × Session) :=
  match session.rest with
  | .op e k => some (e, { session with history := session.history ++ [e.event (answers e)]
                                       rest := k (answers e) })
  | _ => none

def CallSystem.step (cfg : Config) (rt : Runtime) (s : CallSystem) : CallAct → Option CallSystem
  | .invite req =>
    some { s with sessions := s.sessions ++ [⟨req, [], handleInvite cfg rt req, []⟩] }
  | .proceed i env answers =>
    (s.sessions[i]?).bind fun session =>
      (session.proceed answers).bind fun (e, session') =>
        if s.isRepeated (e.event (answers e)) then none
        else some { sessions := s.sessions.set i session', store := s.store.perform env e }
  | .teardown i n env now =>
    (s.sessions[i]?).bind fun session =>
      (session.handler n).map fun acts =>
        { sessions := s.sessions.set i { session with fired := n :: session.fired }
          store := acts.foldl (fun store act => store.onDestroy env now act) s.store }

end CallNet
