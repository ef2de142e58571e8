import Pompeius.Model.Device

/-!
# The rules of the database (`cloudFireStoreRules.txt`)

Firestore asks the rules about a write before it takes effect. These look at the
path and at the clock, and at nothing else: not at who is signed in, not at the
document, not at what is written. A deployment is a device with a clock, on
which time passes between events, and a write that the rules do not allow can
only be answered with an error. Times are nanoseconds since 1970.
-/

namespace Pompeius

/-- `timestamp.date(year, month, day)`, midnight in UTC. -/
def timestampDate (year month day : Nat) : Nat :=
  -- counted in years from March, of which the leap day is the last day
  let marchYear := if month ≤ 2 then year - 1 else year
  let marchMonth := (month + 9) % 12
  let leapDays := marchYear / 4 - marchYear / 100 + marchYear / 400
  let days := 365 * marchYear + leapDays + (153 * marchMonth + 2) / 5 + (day - 1)
  (days - 719468) * (24 * 60 * 60 * 1000000000)

/-- A request the rules are asked about; `allow read, write` does not distinguish
methods. -/
structure RulesRequest where
  path : List String
  time : Nat
  deriving DecidableEq, Repr

/-- `match /databases/{database}/documents { match /{document=**} { … } }`. -/
def cloudFireStoreRules (request : RulesRequest) : Bool :=
  match request.path with
  | "databases" :: _database :: "documents" :: _document =>
      request.time < timestampDate 2020 9 27
  | _ => false

/-- Where `db.collection("users").document(document)` is. -/
def usersPath (document : String) : List String :=
  ["databases", "(default)", "documents", "users", document]

structure Deployment where
  device : Device
  time : Nat

namespace Deployment

inductive Event where
  | wait (duration : Nat)
  | device (e : Device.Event)
  deriving DecidableEq, Repr

/-- Could the backend do this under the rules? -/
def permits (s : Deployment) : Device.Event → Bool
  | .serve i (.setData (.success _)) =>
      match s.device.calls i with
      | some ⟨.setData write _, _⟩ => cloudFireStoreRules ⟨usersPath write.document, s.time⟩
      | _ => true
  | _ => true

def next (s : Deployment) : Event → Option Deployment
  | .wait duration => some { s with time := s.time + duration }
  | .device e =>
      if s.permits e then (s.device.next e).map fun device => { s with device := device }
      else none

def launch (b : Backend) (time : Nat) : Deployment := ⟨Device.launch b, time⟩

end Deployment

/-- The day the rules name is the 18532nd since 1970. -/
example : timestampDate 2020 9 27 = 18532 * (24 * 60 * 60 * 1000000000) := by decide

end Pompeius
