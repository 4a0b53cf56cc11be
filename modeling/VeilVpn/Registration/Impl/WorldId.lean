import VeilVpn.Json
import VeilVpn.Registration.Impl.Reaper

/-!
This module contains the registration of humans: on a node that is only for humans every request has
to carry a proof, which is verified by the service of World ID.
-/

namespace Registration

/--
What the verification takes from the JSON crate and from the service.
-/
structure WorldApi where
  fromStr : String → Except String Json
  /-- The text of the answer to a proof that is posted to a URL -/
  post : String → Json → Except String String

def isHumanOnly (btHumanOnly : Option String) : Bool :=
  match btHumanOnly with
  | some v => v = "1" || v.toList.map Char.toLower = "true".toList
  | none => false

def nullifierOf (body : Json) : String :=
  match (body.get "nullifier").bind Json.asStr with
  | some nullifier => nullifier
  | none =>
    let first := ((body.get "results").bind Json.asArray).bind List.head?
    ((first.bind (Json.get "nullifier")).bind Json.asStr).getD ""

variable (W : WorldApi)

def verifyWorldProof (worldRpId : String) (proof : Json) : Except String String :=
  if worldRpId.isEmpty then
    .error "World ID not configured (missing BT_WORLD_RP_ID)"
  else
    -- Forward the entire proof payload to World's verify API
    match W.post ("https://developer.world.org/api/v4/verify/" ++ worldRpId) proof with
    | .error e => .error e
    | .ok bodyText =>
      match W.fromStr bodyText with
      | .error e => .error ("World API parse failed: " ++ e ++ " body=" ++ bodyText)
      | .ok body =>
        if (body.get "success").bind Json.asBool = some true then
          let nullifier := nullifierOf body
          if nullifier.isEmpty then
            .error "World API returned success but no nullifier"
          else
            .ok nullifier
        else
          let detail := ((body.get "detail").bind Json.asStr).getD "unknown error"
          .error ("World API rejected: " ++ detail)

structure HumanThreads where
  threads : Threads
  /-- World ID nullifiers (one human = one connection) -/
  usedNullifiers : HashSet String
  worldRpId : String
  /-- The environment variable that switches human-only mode on -/
  btHumanOnly : Option String

/--
World ID verification. A nullifier that is already known belongs to a human who reconnects.
-/
def HumanThreads.verify (s : HumanThreads) (json : Json) : HumanThreads × Except Response Unit :=
  if isHumanOnly s.btHumanOnly then
    match json.get "world_proof" with
    | none => (s, .error (400, errorBody "world_proof required for human-only nodes"))
    | some worldProof =>
      match verifyWorldProof W s.worldRpId worldProof with
      | .error e => (s, .error (400, errorBody ("World ID verification failed: " ++ e)))
      | .ok nullifier =>
        ({ s with usedNullifiers := insert nullifier s.usedNullifiers }, .ok ())
  else
    (s, .ok ())

/--
The lock is released between the verification and the registration, but the reaper does not look at
the nullifiers, so nothing that it does in between matters.
-/
def handleRegistrationV2 (B : Base64) (s : HumanThreads) (body : String) (call : Call)
    : HumanThreads × Response :=
  match W.fromStr (Text.trim body) with
  | .error _ => (s, (400, errorBody "invalid JSON"))
  | .ok json =>
    match (json.get "public_key").bind Json.asStr with
    | none => (s, (400, errorBody "missing public_key field"))
    | some pubkeyBase64 =>
      match s.verify W json with
      | (s, .error response) => (s, response)
      | (s, .ok ()) =>
        let (state, response) := handleRegistration B s.threads.state pubkeyBase64 call
        ({ s with threads := { s.threads with state } }, response)

inductive HumanEvent where
  | register (body : String) (call : Call)
  | query (answer : Except String UapiPeers)
  | lock (nowInstant : Instant) (order : (m : HashMap String UInt8) → HashMap.Iteration m)
  | remove (answer : Except String Bool)

def HumanThreads.reap (B : Base64) (s : HumanThreads) (e : Event)
    : Option (HumanThreads × List Response) :=
  match step B s.threads e with
  | none => none
  | some (threads, responses) => some ({ s with threads }, responses)

def humanStep (B : Base64) (s : HumanThreads) : HumanEvent → Option (HumanThreads × List Response)
  | .register body call =>
    match s.threads.reaper with
    -- The reaper holds the lock
    | .removing _ _ => none
    | _ =>
      let (s, response) := handleRegistrationV2 W B s body call
      some (s, [response])
  | .query answer => s.reap B (.query answer)
  | .lock nowInstant order => s.reap B (.lock nowInstant order)
  | .remove answer => s.reap B (.remove answer)

def humanMachine (B : Base64) : Machine HumanThreads HumanEvent Response where
  step := humanStep W B

end Registration
