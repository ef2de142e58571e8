import Pompeius.Lib.Run
import Pompeius.Model.Handlers

/-!
# Taps, calls in flight and the backend

The program behind its screens. A tap on a submit button runs its handler; the
call the handler makes is in flight under the number of the tap until the
backend serves it, and then until its completion handler is delivered, which
may put the next call of the same tap in flight. Handlers and completion
handlers make at most one call each, so a tap has at most one in flight and
its number names it. Serving and delivering are separate events: an upload
takes effect when it is served, and the program hears of it later.

Auth changes the signed-in user while it serves a sign-in. It then announces
the change, and only after the announcement does the completion handler run
(`possiblyPostAuthStateChangeNotification` and the completion are put on one
queue, in this order). Firestore goes by the announcements: it has a user of
its own, which is behind Auth's for as long as some are pending.

Calls of different taps are served and delivered in any order, with one
exception. Firestore keeps the writes of each user in a queue and sends those
of its user, in the order they were made; nobody else's are sent before the
user is theirs again. So of the writes only the first one of Firestore's user
can be served, and serving it stands for all the sending it takes, which
`Model/Firestore` is about. Firestore is taken to be there from the launch on,
with nothing left over from an earlier one.

Any user may sign in or out at any time and taps name no screen, so one device
stands for any number of them sharing a backend: each tap records the user it
saw.

`history`, newest first, is there for statements; no step reads it.
-/

namespace Pompeius

open Lib

structure Account where
  email : String
  password : String
  uid : String
  deriving DecidableEq, Repr

/-- The stored state of Firebase, and who is signed in. -/
structure Backend where
  currentUser : Option User := none
  accounts : List Account := []
  /-- The collection `users`. -/
  users : Collection := fun _ => none
  bucket : StorageReference → Option StorageObject := fun _ => none

structure Call where
  request : Request
  answer : Option Answer := none
  deriving DecidableEq, Repr

structure Tap where
  /-- The instance whose button was tapped, which the closures capture. -/
  self : Nat
  invocation : Invocation
  user : Option User
  deriving DecidableEq, Repr

inductive Deed where
  | request (r : Request)
  | served (r : Request) (a : Answer)
  | delivered (r : Request) (a : Answer)
  | ui (e : UIEffect)
  deriving DecidableEq, Repr

/-- A change of the signed-in user that Firestore has not heard of yet. -/
structure Announcement where
  /-- The tap whose sign-in it was, if it was one. -/
  tap : Option Nat
  user : Option User
  deriving DecidableEq, Repr

structure Device extends Backend where
  taps : List Tap := []
  calls : Nat → Option Call := fun _ => none
  announcements : List Announcement := []
  /-- The user Firestore works for. -/
  firestoreUser : Option User := none
  /-- The writes waiting to be sent: the user each of them is queued for, and the
  tap. -/
  pipeline : List (Option User × Nat) := []
  history : List (Nat × Deed) := []

/-! ## What the backend does with a request -/

def Backend.accountsAfter (b : Backend) : Request → Answer → List Account
  | .createUser email password _ _, .createUser reply =>
      (reply.opened.map (Account.mk email password)).toList ++ b.accounts
  | _, _ => b.accounts

def Backend.usersAfter (b : Backend) : Request → Answer → Collection
  | .setData write _, .setData (.success _) => write.apply b.users
  | _, _ => b.users

def Backend.bucketAfter (b : Backend) :
    Request → Answer → StorageReference → Option StorageObject
  | .putData ref object _, .putData (.success _) => Function.update b.bucket ref (some object)
  | _, _ => b.bucket

/-- Could Firebase say this? A new account needs an unused email and gets an
unused uid, a sign-in needs the account; failing is always possible. -/
def Backend.permits (b : Backend) : Request → Answer → Bool
  | .signIn email password, .signIn (.success _) =>
      b.accounts.any fun x => x.email == email && x.password == password
  | .createUser email _ _ _, .createUser reply =>
      reply.opened.all fun uid => b.accounts.all fun x => x.email != email && x.uid != uid
  | r, a => r.fits a

/-- Is this the success of a sign-in? One that opens the account is one, too. -/
def Answer.signsIn : Answer → Bool
  | .signIn r => r.value.isSome
  | .createUser r => r.value.isSome
  | _ => false

/-- Who is signed in once the request is answered. -/
def Backend.userAfter (b : Backend) : Request → Answer → Option User
  | .createUser _ _ _ _, .createUser (.success uid) => some ⟨uid⟩
  | .signIn email _, .signIn (.success _) =>
      (b.accounts.find? fun x => x.email == email).map fun x => ⟨x.uid⟩
  | _, _ => b.currentUser

/-! ## Steps -/

namespace Device

/-- What a handler run for tap `i` leaves in the history. -/
def deeds (eff : Effects) : List Deed :=
  eff.ui.reverse.map .ui ++ (eff.request.map .request).toList

/-- Put the call of tap `i`, if there is one, in flight. A write is queued for the
user Firestore works for. -/
def issue (d : Device) (i : Nat) (eff : Effects) : Device :=
  { d with
    calls := Function.update d.calls i (eff.request.map fun r => { request := r })
    pipeline := d.pipeline ++
      if eff.request.any (·.isWrite) then [(d.firestoreUser, i)] else []
    history := (deeds eff).map (i, ·) ++ d.history }

inductive Event where
  /-- A tap on a submit button. -/
  | invoke (self : Nat) (h : Invocation)
  /-- The backend answers the call of tap `i`. -/
  | serve (i : Nat) (a : Answer)
  /-- Firestore hears of the oldest change of the user. -/
  | announce
  /-- The completion handler of tap `i` runs. -/
  | deliver (i : Nat)
  /-- Someone else signs in, or nobody is signed in any more. -/
  | auth (user : Option User)
  deriving DecidableEq, Repr

/-- The device once someone else has become its user. -/
def switched (d : Device) (user : Option User) : Device :=
  { d with currentUser := user, announcements := d.announcements ++ [⟨none, user⟩] }

/-- The write Firestore has under way, by its tap: the first one of its user. -/
def nextWrite (d : Device) : Option Nat :=
  (d.pipeline.find? fun p => p.1 == d.firestoreUser).map (·.2)

/-- The device once tap number `d.taps.length` has run its handler. -/
def tapped (d : Device) (self : Nat) (h : Invocation) (eff : Effects) : Device :=
  { d with taps := d.taps ++ [Tap.mk self h d.currentUser] }.issue d.taps.length eff

/-- The device once the backend has taken request `r` of tap `i`. -/
def answered (d : Device) (i : Nat) (r : Request) (a : Answer) : Device :=
  { d with
    currentUser := d.userAfter r a
    accounts := d.accountsAfter r a
    users := d.usersAfter r a
    bucket := d.bucketAfter r a
    calls := Function.update d.calls i (if r.awaits then some ⟨r, some a⟩ else none)
    announcements := d.announcements ++ if a.signsIn then [⟨some i, d.userAfter r a⟩] else []
    pipeline :=
      if r.isWrite then d.pipeline.eraseP fun p => p.1 == d.firestoreUser else d.pipeline
    history := (i, .served r a) :: d.history }

/-- The device once the completion handler of tap `i` has run. -/
def resumed (d : Device) (i : Nat) (r : Request) (a : Answer) (eff : Effects) : Device :=
  { d with history := (i, .delivered r a) :: d.history }.issue i eff

/-- The device once Firestore has heard of its new user. -/
def heard (d : Device) (x : Announcement) (rest : List Announcement) : Device :=
  { d with announcements := rest, firestoreUser := x.user }

def invoke (d : Device) (self : Nat) (h : Invocation) :
    Except Trap (Device × List UIEffect) := do
  let eff ← h.run d.currentUser
  return (d.tapped self h eff, eff.ui)

def serve (d : Device) (i : Nat) (r : Request) (a : Answer) : Option Device :=
  if d.permits r a ∧ (r.isWrite → d.nextWrite = some i) then some (d.answered i r a)
  else none

/-- The sign-in of tap `i` has not been announced yet. -/
def Unannounced (d : Device) (i : Nat) : Prop := ∃ x ∈ d.announcements, x.tap = some i

instance (d : Device) (i : Nat) : Decidable (d.Unannounced i) :=
  inferInstanceAs (Decidable (∃ x ∈ d.announcements, x.tap = some i))

def deliver (d : Device) (i : Nat) (r : Request) (a : Answer) :
    Option (Except Trap (Device × List UIEffect)) :=
  if d.Unannounced i then none
  else some do
    let eff ← completion r a
    return (d.resumed i r a eff, eff.ui)

/-- One event; `none` when it cannot happen here. The list is what the step
does to the screen of the tap it belongs to. -/
def step (d : Device) : Event → Option (Except Trap (Device × List UIEffect))
  | .invoke self h => some (d.invoke self h)
  | .serve i a =>
      match d.calls i with
      | some ⟨r, none⟩ => (d.serve i r a).map fun d' => .ok (d', [])
      | _ => none
  | .deliver i =>
      match d.calls i with
      | some ⟨r, some a⟩ => d.deliver i r a
      | _ => none
  | .announce =>
      match d.announcements with
      | x :: rest => some (.ok (d.heard x rest, []))
      | [] => none
  | .auth user => some (.ok (d.switched user, []))

/-- The step without its screen. -/
def next (d : Device) (e : Event) : Option Device :=
  match d.step e with
  | some (.ok (d', _)) => some d'
  | _ => none

/-- A device on which nothing has happened yet. -/
def launch (b : Backend) : Device := { b with firestoreUser := b.currentUser }

/-- No callback of tap `i` is outstanding. -/
def Settled (d : Device) (i : Nat) : Prop := d.calls i = none

/-- No callback is outstanding. -/
def Quiescent (d : Device) : Prop := ∀ i, d.calls i = none

end Device

end Pompeius
