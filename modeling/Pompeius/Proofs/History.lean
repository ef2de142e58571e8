import Mathlib.Data.List.Nodup
import Pompeius.Proofs.Life

/-!
# Reading the history

What the record of a run says about the backend and about the handlers. Three
readings, each an invariant of `Device.Step`.

* **Whose request.** `Tap.Issues` lists the requests a tap can ever make, one
  constructor for each call in the source. It is closed under completion
  handlers, so every request on record is one of its tap's
  (`issues_of_run`).

* **Replay.** What is stored is what the served requests make of the initial
  backend, in order: `stored_of_run`. `applied` keeps the Firestore writes
  that took effect and `users_of_run` is the replay of those alone.

* **The queues.** `Queued` says a tap is in the pipeline exactly while its
  write is unanswered, and once. What is sent first is another matter: a write
  waits for its user, and may be overtaken while it does. As long as nobody signs
  in or out there is one queue and it is kept in order (`InOrder`): the writes
  asked for are the writes answered followed by the pipeline, and once no
  callback is outstanding the last write asked for is the last one applied.
-/

namespace Pompeius

open Lib Device

/-! ## Whose request -/

/-- The requests a tap can make, the first one and the ones of its completion
handlers. -/
inductive Tap.Issues (t : Tap) : Request → Prop
  | signIn {self : ViewController} : t.invocation = .loginButton self →
      Issues t (.signIn self.emailField.cleaned self.passwordField.cleaned)
  | createUser {self : RegisterViewController} : t.invocation = .registerButton self →
      Issues t (.createUser self.emailField.cleaned self.passwordField.cleaned
        self.firstNameField.cleaned self.lastNameField.cleaned)
  | registration {self : RegisterViewController} (uid : String) :
      t.invocation = .registerButton self →
      Issues t (.setData (RegisterViewController.registrationWrite
        self.firstNameField.cleaned self.lastNameField.cleaned uid) true)
  | putData {self : MyProfileViewController} {user : User} {imageData : Data} :
      t.invocation = .profileContinue self → t.user = some user →
      self.imageData = some imageData →
      Issues t (.putData (MyProfileViewController.storageProfileRef user.uid)
        ⟨imageData, "image/jpg"⟩ self.submitted)
  | downloadURL {self : MyProfileViewController} {user : User} :
      t.invocation = .profileContinue self → t.user = some user →
      Issues t (.downloadURL (MyProfileViewController.storageProfileRef user.uid)
        self.submitted)
  | profile {self : MyProfileViewController} {user : User} (tokens : DownloadTokens) :
      t.invocation = .profileContinue self → t.user = some user →
      Issues t (.setData (MyProfileViewController.profileWrite self.submitted
        ((MyProfileViewController.storageProfileRef user.uid).downloadURL tokens)) false)
  | profile2 {self : MyProfile2ViewController} {user : User} :
      t.invocation = .profile2Continue self → t.user = some user →
      Issues t (.setData self.submitted false)

theorem Tap.issues_of_handler {t : Tap} {eff : Effects} {r : Request}
    (h : t.invocation.run t.user = .ok eff) (hr : eff.request = some r) : t.Issues r := by
  cases hinv : t.invocation with
  | loginButton self =>
      rw [hinv] at h
      change self.loginButton = _ at h
      rw [self.loginButton_eq] at h
      cases h
      cases hr
      exact .signIn hinv
  | registerButton self =>
      rw [hinv] at h
      change self.registerButton = _ at h
      rw [self.registerButton_eq] at h
      obtain rfl := Except.ok.inj h
      split at hr
      · cases hr
      · cases hr
        exact .createUser hinv
  | profileContinue self =>
      rw [hinv] at h
      change self.continueButton t.user = _ at h
      rw [self.continueButton_eq] at h
      cases h
      cases himage : self.imageData with
      | none => rw [himage] at hr; cases hr
      | some imageData =>
          rw [himage] at hr
          obtain ⟨user, huser, rfl⟩ := Option.map_eq_some_iff.mp hr
          exact .putData hinv huser himage
  | profile2Continue self =>
      rw [hinv] at h
      change self.continueButton t.user = _ at h
      rw [self.continueButton_eq] at h
      cases h
      obtain ⟨user, huser, rfl⟩ := Option.map_eq_some_iff.mp hr
      exact .profile2 hinv huser

theorem Tap.issues_of_completion {t : Tap} {r r' : Request} {a : Answer} {eff : Effects}
    (ht : t.Issues r) (h : completion r a = .ok eff) (hr : eff.request = some r') :
    t.Issues r' := by
  cases ht with
  | signIn _ =>
      cases a with
      | signIn reply => cases reply <;> cases h <;> cases hr
      | _ => cases h; cases hr
  | createUser hinv =>
      cases a with
      | createUser reply =>
          cases reply with
          | failure e => cases h; cases hr
          | incomplete uid e => cases h; cases hr
          | success uid => cases h; cases hr; exact .registration uid hinv
      | _ => cases h; cases hr
  | registration _ _ =>
      cases a with
      | setData reply => cases reply <;> cases h <;> cases hr
      | _ => cases h; cases hr
  | putData hinv huser _ =>
      cases a with
      | putData reply =>
          cases reply with
          | failure e => cases h; cases hr
          | success _ => cases h; cases hr; exact .downloadURL hinv huser
      | _ => cases h; cases hr
  | downloadURL hinv huser =>
      cases a with
      | downloadURL reply =>
          cases reply with
          | failure e => cases h; cases hr
          | success tokens => cases h; cases hr; exact .profile tokens hinv huser
      | _ => cases h; cases hr
  | profile _ _ _ => cases a <;> cases h <;> cases hr
  | profile2 _ _ => cases a <;> cases h <;> cases hr

/-- The request a deed is about. -/
def Deed.request? : Deed → Option Request
  | .request r => some r
  | .served r _ => some r
  | .delivered r _ => some r
  | .ui _ => none

theorem request?_of_mem_deeds {eff : Effects} {x : Deed} {r : Request}
    (hx : x ∈ deeds eff) (hr : x.request? = some r) : eff.request = some r := by
  rw [deeds, List.mem_append] at hx
  cases hx with
  | inl hui =>
      obtain ⟨e, -, rfl⟩ := List.mem_map.mp hui
      cases hr
  | inr hreq =>
      obtain ⟨r', hr', rfl⟩ := Option.map_eq_some_iff.mp (Option.mem_toList.mp hreq)
      cases hr
      exact hr'

/-- Every request in a life, in flight or on record, is one its tap makes. -/
theorem issues_of_life {t : Tap} {call : Option Call} {ds : List Deed} (h : Life t call ds) :
    (∀ c, call = some c → t.Issues c.request) ∧
      ∀ x ∈ ds, ∀ r, x.request? = some r → t.Issues r := by
  induction h with
  | @tap eff heff =>
      refine ⟨fun c hc => ?_, fun x hx r hr => ?_⟩
      · obtain ⟨r, hr, rfl⟩ := Option.map_eq_some_iff.mp hc
        exact Tap.issues_of_handler heff hr
      · exact Tap.issues_of_handler heff (request?_of_mem_deeds hx hr)
  | @serve r a ds _ hfit ih =>
      have hself : t.Issues r := ih.1 _ rfl
      refine ⟨fun c hc => ?_, fun x hx r' hr => ?_⟩
      · unfold Request.after at hc
        split at hc
        · cases hc; exact hself
        · cases hc
      · rcases List.mem_cons.mp hx with rfl | hx
        · cases hr; exact hself
        · exact ih.2 x hx r' hr
  | @deliver r a eff ds _ heff ih =>
      have hself : t.Issues r := ih.1 _ rfl
      refine ⟨fun c hc => ?_, fun x hx r' hr => ?_⟩
      · obtain ⟨r', hr', rfl⟩ := Option.map_eq_some_iff.mp hc
        exact Tap.issues_of_completion hself heff hr'
      · rcases List.mem_append.mp hx with hx | hx
        · exact Tap.issues_of_completion hself heff (request?_of_mem_deeds hx hr)
        · rcases List.mem_cons.mp hx with rfl | hx
          · cases hr; exact hself
          · exact ih.2 x hx r' hr

namespace Device

theorem mem_ofTap {hist : List (Nat × Deed)} {i : Nat} {x : Deed} :
    x ∈ ofTap i hist ↔ (i, x) ∈ hist := by
  rw [ofTap, List.mem_filterMap]
  constructor
  · rintro ⟨⟨j, y⟩, hmem, heq⟩
    split at heq
    · rename_i hj
      cases hj
      cases heq
      exact hmem
    · cases heq
  · intro hmem
    exact ⟨(i, x), hmem, if_pos rfl⟩

theorem mem_deedsOf {d : Device} {i : Nat} {x : Deed} :
    x ∈ d.deedsOf i ↔ (i, x) ∈ d.history := mem_ofTap

/-- What stands before a deed in the history stands before it in the record. -/
theorem deedsOf_split {d : Device} {newer older : List (Nat × Deed)} {i : Nat} {x : Deed}
    (h : d.history = newer ++ (i, x) :: older) :
    d.deedsOf i = ofTap i newer ++ x :: ofTap i older := by
  have hcons : ofTap i ((i, x) :: older) = x :: ofTap i older :=
    List.filterMap_cons_some (if_pos rfl)
  rw [deedsOf, h, ← hcons]
  exact List.filterMap_append

/-- Whatever is on record belongs to a tap that was made. -/
theorem Lives.exists_tap_of_mem {d : Device} (hl : Lives d) {i : Nat} {x : Deed}
    (hx : (i, x) ∈ d.history) : ∃ t, d.taps[i]? = some t := by
  rcases Nat.lt_or_ge i d.taps.length with hi | hi
  · exact ⟨d.taps[i], List.getElem?_eq_getElem hi⟩
  · have hmem := mem_deedsOf.mpr hx
    rw [(hl.unborn i hi).2] at hmem
    cases hmem

theorem exists_tap_of_run {b : Backend} {evs : List Event} {d : Device}
    (h : run next (launch b) evs = some d) {i : Nat} {x : Deed} (hx : (i, x) ∈ d.history) :
    ∃ t, d.taps[i]? = some t :=
  (lives_of_run h).exists_tap_of_mem hx

/-- Every request on record is one its tap makes. -/
theorem issues_of_run {b : Backend} {evs : List Event} {d : Device}
    (h : run next (launch b) evs = some d) {i : Nat} {x : Deed} {r : Request}
    (hx : (i, x) ∈ d.history) (hr : x.request? = some r) :
    ∃ t, d.taps[i]? = some t ∧ t.Issues r := by
  obtain ⟨t, ht⟩ := exists_tap_of_run h hx
  exact ⟨t, ht, (issues_of_life (life_of_run h ht)).2 x (mem_deedsOf.mpr hx) r hr⟩

/-- What a run of events taps, in order. -/
def invocations (evs : List Event) : List Invocation :=
  evs.filterMap fun e => match e with
    | .invoke _ h => some h
    | _ => none

theorem invocations_of_run {b : Backend} {evs : List Event} {d : Device}
    (h : run next (launch b) evs = some d) : d.taps.map (·.invocation) = invocations evs := by
  refine run_rec (motive := fun evs d => d.taps.map (·.invocation) = invocations evs) rfl
    (fun {es d e d'} _ ih hs => ?_) h
  rw [invocations, List.filterMap_append, ← invocations, ← ih]
  cases step_of_next hs with
  | invoke heff =>
      show (d.taps ++ [_]).map _ = _
      rw [List.map_append]
      rfl
  | _ => exact (List.append_nil _).symm

/-- A handler run draws and asks, and answers nothing. -/
theorem kind_of_mem_deeds {eff : Effects} {x : Deed} (h : x ∈ deeds eff) :
    (∃ e, x = .ui e) ∨ ∃ r, x = .request r := by
  rcases List.mem_append.mp h with h | h
  · obtain ⟨e, -, rfl⟩ := List.mem_map.mp h
    exact .inl ⟨e, rfl⟩
  · obtain ⟨r, -, rfl⟩ := Option.map_eq_some_iff.mp (Option.mem_toList.mp h)
    exact .inr ⟨r, rfl⟩

theorem served_not_mem_deeds {eff : Effects} {r : Request} {a : Answer} :
    Deed.served r a ∉ deeds eff := by
  intro hmem
  obtain ⟨e, he⟩ | ⟨r', hr⟩ := kind_of_mem_deeds hmem
  · cases he
  · cases hr

theorem served_of_mem_tapped {d : Device} {self j : Nat} {inv : Invocation} {eff : Effects}
    {r : Request} {a : Answer} (h : (j, .served r a) ∈ (d.tapped self inv eff).history) :
    (j, .served r a) ∈ d.history := by
  rcases List.mem_append.mp h with hmem | hmem
  · obtain ⟨x, hx, heq⟩ := List.mem_map.mp hmem
    cases heq
    exact absurd hx served_not_mem_deeds
  · exact hmem

theorem served_of_mem_resumed {d : Device} {i j : Nat} {r r' : Request} {a a' : Answer}
    {eff : Effects} (h : (j, .served r' a') ∈ (d.resumed i r a eff).history) :
    (j, .served r' a') ∈ d.history := by
  rcases List.mem_append.mp h with hmem | hmem
  · obtain ⟨x, hx, heq⟩ := List.mem_map.mp hmem
    cases heq
    exact absurd hx served_not_mem_deeds
  · rcases List.mem_cons.mp hmem with heq | hmem
    · cases heq
    · exact hmem

/-- Every answer on record fits its request. -/
theorem fits_of_life {t : Tap} {call : Option Call} {ds : List Deed} (h : Life t call ds) :
    ∀ r a, .served r a ∈ ds → r.fits a = true := by
  induction h with
  | tap _ => exact fun r a hmem => absurd hmem served_not_mem_deeds
  | serve _ hfit ih =>
      intro r a hmem
      rcases List.mem_cons.mp hmem with heq | hmem
      · cases heq
        exact hfit
      · exact ih r a hmem
  | deliver _ _ ih =>
      intro r a hmem
      rcases List.mem_append.mp hmem with hmem | hmem
      · exact absurd hmem served_not_mem_deeds
      · rcases List.mem_cons.mp hmem with heq | hmem
        · cases heq
        · exact ih r a hmem

theorem fits_of_run {b : Backend} {evs : List Event} {d : Device}
    (h : run next (launch b) evs = some d) {i : Nat} {r : Request} {a : Answer}
    (hx : (i, .served r a) ∈ d.history) : r.fits a = true := by
  obtain ⟨t, ht⟩ := exists_tap_of_run h hx
  exact fits_of_life (life_of_run h ht) r a (mem_deedsOf.mpr hx)

/-- The answers on record are the ones the backend gave. -/
theorem served_iff_of_run {b : Backend} {evs : List Event} {d : Device}
    (h : run next (launch b) evs = some d) {i : Nat} {a : Answer} :
    (∃ r, (i, .served r a) ∈ d.history) ↔ .serve i a ∈ evs := by
  refine run_rec (motive := fun evs d => (∃ r, (i, .served r a) ∈ d.history) ↔ .serve i a ∈ evs)
    (by simp [launch]) (fun {es d e d'} _ ih hs => ?_) h
  rw [List.mem_append, List.mem_singleton, ← ih]
  cases step_of_next hs with
  | invoke _ =>
      simp only [reduceCtorEq, or_false]
      refine exists_congr fun r => ⟨served_of_mem_tapped, fun hmem => ?_⟩
      exact List.mem_append_right _ hmem
  | @serve j r' a' _ _ _ =>
      simp only [Event.serve.injEq]
      show (∃ r, _ ∈ (j, .served r' a') :: d.history) ↔ _
      simp only [List.mem_cons, Prod.mk.injEq, Deed.served.injEq, exists_or]
      rw [or_comm]
      refine or_congr Iff.rfl ⟨?_, ?_⟩
      · rintro ⟨r, hi, -, ha⟩
        exact ⟨hi, ha⟩
      · rintro ⟨hi, ha⟩
        exact ⟨r', hi, rfl, ha⟩
  | deliver _ _ _ =>
      simp only [reduceCtorEq, or_false]
      refine exists_congr fun r => ⟨served_of_mem_resumed, fun hmem => ?_⟩
      exact List.mem_append_right _ (List.mem_cons_of_mem _ hmem)
  | announce _ => simp [heard]
  | auth => simp [switched]

/-! ## Replay -/

end Device

/-- The stored state once the backend has taken what a deed serves it. -/
def Backend.took (b : Backend) : Deed → Backend
  | .served r a =>
      { b with
        accounts := b.accountsAfter r a
        users := b.usersAfter r a
        bucket := b.bucketAfter r a }
  | _ => b

/-- What a history, newest first, makes of a backend. -/
def Backend.replay (b : Backend) (hist : List (Nat × Deed)) : Backend :=
  hist.foldr (fun p b => b.took p.2) b

theorem Backend.replay_append (b : Backend) (newer older : List (Nat × Deed)) :
    b.replay (newer ++ older) = (b.replay older).replay newer :=
  List.foldr_append

theorem Backend.replay_deeds (b : Backend) (i : Nat) (eff : Effects) :
    b.replay ((deeds eff).map (i, ·)) = b := by
  have h : ∀ ds : List Deed, (∀ x ∈ ds, b.took x = b) → b.replay (ds.map (i, ·)) = b := by
    intro ds hds
    induction ds with
    | nil => rfl
    | cons x ds ih =>
        show (b.replay (ds.map (i, ·))).took x = b
        rw [ih fun y hy => hds y (List.mem_cons_of_mem x hy)]
        exact hds x List.mem_cons_self
  refine h _ fun x hx => ?_
  rcases List.mem_append.mp hx with hui | hreq
  · obtain ⟨e, -, rfl⟩ := List.mem_map.mp hui
    rfl
  · obtain ⟨r, -, rfl⟩ := Option.map_eq_some_iff.mp (Option.mem_toList.mp hreq)
    rfl

namespace Device

/-- What is stored is what the history makes of the backend at launch. -/
theorem stored_of_run {b : Backend} {evs : List Event} {d : Device}
    (h : run next (launch b) evs = some d) :
    { d.toBackend with currentUser := b.currentUser } = b.replay d.history := by
  refine run_invariant
    (P := fun d => { d.toBackend with currentUser := b.currentUser } = b.replay d.history)
    (fun {d e d'} ih hs => ?_) rfl h
  cases step_of_next hs with
  | @invoke self inv eff heff =>
      show _ = b.replay ((deeds eff).map (d.taps.length, ·) ++ d.history)
      rw [Backend.replay_append, Backend.replay_deeds]
      exact ih
  | @serve i r a _ _ _ =>
      show _ = (b.replay d.history).took (.served r a)
      rw [← ih]
      rfl
  | @deliver i r a eff _ _ _ =>
      show _ = b.replay ((deeds eff).map (i, ·) ++ (i, .delivered r a) :: d.history)
      rw [Backend.replay_append, Backend.replay_deeds]
      exact ih
  | announce _ => exact ih
  | auth => exact ih

/-- The Firestore write a deed reports as applied. -/
def appliedWrite : Nat × Deed → Option (Nat × DocumentWrite)
  | (i, .served (.setData w _) (.setData (.success _))) => some (i, w)
  | _ => none

/-- The Firestore writes that took effect, newest first, by tap. -/
def applied (hist : List (Nat × Deed)) : List (Nat × DocumentWrite) :=
  hist.filterMap appliedWrite

/-- A reading of the history that skips requests and screens skips a handler
run. -/
theorem filterMap_deeds {α : Type} {f : Nat × Deed → Option α} {i : Nat} {eff : Effects}
    (hui : ∀ e, f (i, .ui e) = none) (hreq : ∀ r, f (i, .request r) = none) :
    ((deeds eff).map (i, ·)).filterMap f = [] := by
  refine List.filterMap_eq_nil_iff.mpr fun p hp => ?_
  obtain ⟨x, hx, rfl⟩ := List.mem_map.mp hp
  rcases List.mem_append.mp hx with hx | hx
  · obtain ⟨e, -, rfl⟩ := List.mem_map.mp hx
    exact hui e
  · obtain ⟨r, -, rfl⟩ := Option.map_eq_some_iff.mp (Option.mem_toList.mp hx)
    exact hreq r

theorem applied_append_deeds (i : Nat) (eff : Effects) (hist : List (Nat × Deed)) :
    applied ((deeds eff).map (i, ·) ++ hist) = applied hist := by
  rw [applied, List.filterMap_append, filterMap_deeds (fun _ => rfl) fun _ => rfl]
  rfl

theorem mem_applied {hist : List (Nat × Deed)} {i : Nat} {w : DocumentWrite} :
    (i, w) ∈ applied hist ↔
      ∃ c, (i, .served (.setData w c) (.setData (.success ()))) ∈ hist := by
  rw [applied, List.mem_filterMap]
  constructor
  · rintro ⟨⟨j, x⟩, hmem, heq⟩
    unfold appliedWrite at heq
    split at heq
    · rename_i heq'
      cases heq
      cases heq'
      exact ⟨_, hmem⟩
    · cases heq
  · rintro ⟨c, hmem⟩
    exact ⟨_, hmem, rfl⟩

theorem replay_users (b : Backend) (hist : List (Nat × Deed)) :
    (b.replay hist).users = (applied hist).foldr (fun p c => p.2.apply c) b.users := by
  induction hist with
  | nil => rfl
  | cons p hist ih =>
      obtain ⟨i, x⟩ := p
      show ((b.replay hist).took x).users = _
      cases hx : appliedWrite (i, x) with
      | none =>
          have hcons : applied ((i, x) :: hist) = applied hist :=
            List.filterMap_cons_none hx
          rw [hcons, ← ih]
          unfold appliedWrite at hx
          split at hx
          · cases hx
          · rename_i hne
            cases x with
            | served r a =>
                show (b.replay hist).usersAfter r a = _
                unfold Backend.usersAfter
                split
                · exact absurd rfl (hne _ _ _ _)
                · rfl
            | _ => rfl
      | some q =>
          have hcons : applied ((i, x) :: hist) = q :: applied hist :=
            List.filterMap_cons_some hx
          rw [hcons, List.foldr_cons, ← ih]
          unfold appliedWrite at hx
          split at hx
          · rename_i heq
            cases heq
            cases hx
            rfl
          · cases hx

/-- The collection is the replay of the writes that took effect. -/
theorem users_of_run {b : Backend} {evs : List Event} {d : Device}
    (h : run next (launch b) evs = some d) :
    d.users = (applied d.history).foldr (fun p c => p.2.apply c) b.users := by
  rw [← replay_users, ← stored_of_run h]

/-- An object in the bucket was there at launch or was uploaded by a tap. -/
theorem bucket_of_run {b : Backend} {evs : List Event} {d : Device}
    (h : run next (launch b) evs = some d) {ref : StorageReference} {object : StorageObject}
    (hobject : d.bucket ref = some object) :
    b.bucket ref = some object ∨ ∃ i dict,
      (i, .served (.putData ref object dict) (.putData (.success ()))) ∈ d.history := by
  have hreplay : (b.replay d.history).bucket ref = some object := by
    rw [← stored_of_run h]
    exact hobject
  revert hreplay
  generalize d.history = hist
  intro hreplay
  induction hist with
  | nil => exact .inl hreplay
  | cons p hist ih =>
      obtain ⟨i, x⟩ := p
      have hold : (b.replay hist).bucket ref = some object →
          b.bucket ref = some object ∨ ∃ j dict, (j, .served (.putData ref object dict)
            (.putData (.success ()))) ∈ (i, x) :: hist := by
        intro hb
        refine (ih hb).imp_right ?_
        rintro ⟨j, dict, hmem⟩
        exact ⟨j, dict, List.mem_cons_of_mem _ hmem⟩
      change ((b.replay hist).took x).bucket ref = _ at hreplay
      cases x with
      | served r a =>
          change (b.replay hist).bucketAfter r a ref = _ at hreplay
          unfold Backend.bucketAfter at hreplay
          split at hreplay
          · rename_i ref' object' dict _
            by_cases href : ref = ref'
            · subst href
              rw [Function.update_self] at hreplay
              cases hreplay
              exact .inr ⟨i, dict, List.mem_cons_self⟩
            · rw [Function.update_of_ne href] at hreplay
              exact hold hreplay
          · exact hold hreplay
      | _ => exact hold hreplay

/-! ## The pipeline -/

/-- The tap whose deed asks for a Firestore write. -/
def askedWrite : Nat × Deed → Option Nat
  | (i, .request (.setData _ _)) => some i
  | _ => none

/-- The tap whose deed reports a Firestore write acknowledged. -/
def ackedWrite : Nat × Deed → Option Nat
  | (i, .served (.setData _ _) _) => some i
  | _ => none

/-- The writes asked for, newest first, by tap. -/
def asked (hist : List (Nat × Deed)) : List Nat := hist.filterMap askedWrite

/-- The writes acknowledged, newest first, by tap. -/
def acked (hist : List (Nat × Deed)) : List Nat := hist.filterMap ackedWrite

theorem asked_append (newer older : List (Nat × Deed)) :
    asked (newer ++ older) = asked newer ++ asked older :=
  List.filterMap_append

theorem acked_append (newer older : List (Nat × Deed)) :
    acked (newer ++ older) = acked newer ++ acked older :=
  List.filterMap_append

/-- When nothing failed, the writes acknowledged are the writes applied. -/
theorem applied_map_fst {hist : List (Nat × Deed)}
    (h : ∀ i r a, (i, .served r a) ∈ hist → r.fits a = true ∧ a.succeeded = true) :
    (applied hist).map Prod.fst = acked hist := by
  induction hist with
  | nil => rfl
  | cons p hist ih =>
      have htail := ih fun i r a hmem => h i r a (List.mem_cons_of_mem p hmem)
      obtain ⟨i, x⟩ := p
      cases x with
      | served r a =>
          obtain ⟨hfit, hsucc⟩ := h i r a List.mem_cons_self
          cases r with
          | setData w c =>
              cases a with
              | setData reply =>
                  cases reply with
                  | failure e => cases hsucc
                  | success _ => exact congrArg (i :: ·) htail
              | _ => cases hfit
          | _ => exact htail
      | _ => exact htail

theorem asked_deeds (i : Nat) (eff : Effects) :
    asked ((deeds eff).map (i, ·)) =
      if eff.request.any (·.isWrite) then [i] else [] := by
  have hui : asked ((eff.ui.reverse.map Deed.ui).map (i, ·)) = [] := by
    refine List.filterMap_eq_nil_iff.mpr fun p hp => ?_
    obtain ⟨x, hx, rfl⟩ := List.mem_map.mp hp
    obtain ⟨e, -, rfl⟩ := List.mem_map.mp hx
    rfl
  rw [deeds, List.map_append, asked_append, hui, List.nil_append]
  cases eff.request with
  | none => rfl
  | some r => cases r <;> rfl

theorem acked_deeds (i : Nat) (eff : Effects) :
    acked ((deeds eff).map (i, ·)) = [] :=
  filterMap_deeds (fun _ => rfl) fun _ => rfl

theorem acked_answered {d : Device} {i : Nat} {r : Request} {a : Answer} :
    acked (d.answered i r a).history =
      if r.isWrite then i :: acked d.history else acked d.history := by
  cases r <;> rfl

/-- What is sent next has nothing of its user before it. -/
theorem nextWrite_eq_some {d : Device} {i : Nat} (h : d.nextWrite = some i) :
    ∃ front rest, d.pipeline = front ++ (d.firestoreUser, i) :: rest ∧
      ∀ p ∈ front, p.1 ≠ d.firestoreUser := by
  obtain ⟨⟨u, j⟩, hfind, rfl⟩ := Option.map_eq_some_iff.mp h
  obtain ⟨huser, front, rest, hpipe, hfront⟩ := List.find?_eq_some_iff_append.mp hfind
  obtain rfl : u = d.firestoreUser := by simpa using huser
  exact ⟨front, rest, hpipe, fun p hp => by simpa using hfront p hp⟩

theorem mem_of_nextWrite {d : Device} {i : Nat} (h : d.nextWrite = some i) :
    (d.firestoreUser, i) ∈ d.pipeline := by
  obtain ⟨front, rest, hpipe, -⟩ := nextWrite_eq_some h
  rw [hpipe]
  exact List.mem_append_right _ List.mem_cons_self

/-- A write of Firestore's user is waiting exactly when there is one to send. -/
theorem nextWrite_isSome {d : Device} :
    d.nextWrite.isSome = true ↔ ∃ i, (d.firestoreUser, i) ∈ d.pipeline := by
  unfold nextWrite
  rw [Option.isSome_map, List.find?_isSome]
  constructor
  · rintro ⟨⟨u, i⟩, hmem, huser⟩
    obtain rfl : u = d.firestoreUser := by simpa using huser
    exact ⟨i, hmem⟩
  · rintro ⟨i, hmem⟩
    exact ⟨_, hmem, by simp⟩

/-- Answering a call that is no write leaves the pipeline as it was. -/
theorem pipeline_answered_other {d : Device} {i : Nat} {r : Request} {a : Answer}
    (hw : r.isWrite = false) : (d.answered i r a).pipeline = d.pipeline :=
  if_neg (by rw [hw]; exact Bool.false_ne_true)

/-- Answering a write takes it out and leaves the rest in its order. -/
theorem pipeline_answered_write {d : Device} {i : Nat} {r : Request} (a : Answer)
    (hw : r.isWrite = true) (hnext : d.nextWrite = some i) :
    ∃ front rest, d.pipeline = front ++ (d.firestoreUser, i) :: rest ∧
      (∀ p ∈ front, p.1 ≠ d.firestoreUser) ∧ (d.answered i r a).pipeline = front ++ rest := by
  obtain ⟨front, rest, hpipe, hother⟩ := nextWrite_eq_some hnext
  have herase : (d.answered i r a).pipeline = d.pipeline.eraseP fun p => p.1 == d.firestoreUser :=
    if_pos hw
  refine ⟨front, rest, hpipe, hother, ?_⟩
  rw [herase, hpipe, List.eraseP_append_right _ fun p hp => by simpa using hother p hp,
    List.eraseP_cons_of_pos (by simp)]

theorem mem_of_mem_pipeline_answered {d : Device} {i : Nat} {r : Request} {a : Answer}
    {p : Option User × Nat} (hp : p ∈ (d.answered i r a).pipeline) : p ∈ d.pipeline := by
  change p ∈ (if r.isWrite then _ else _) at hp
  split at hp
  · exact List.mem_of_mem_eraseP hp
  · exact hp

/-- What the pipeline holds. -/
structure Queued (d : Device) : Prop where
  once : (d.pipeline.map Prod.snd).Nodup
  waiting : ∀ i, i ∈ d.pipeline.map Prod.snd ↔
    ∃ r, d.calls i = some ⟨r, none⟩ ∧ r.isWrite = true

theorem Queued.not_mem {d : Device} (hd : Queued d) {i : Nat}
    (hcall : ∀ r, d.calls i = some ⟨r, none⟩ → r.isWrite = false) :
    i ∉ d.pipeline.map Prod.snd := by
  intro hmem
  obtain ⟨r, hr, hw⟩ := (hd.waiting i).mp hmem
  rw [hcall r hr] at hw
  cases hw

/-- A handler run queues the write of its tap, if it makes one. -/
theorem queued_issue {d : Device} (hd : Queued d) {i : Nat} (hi : i ∉ d.pipeline.map Prod.snd)
    (eff : Effects) : Queued (d.issue i eff) := by
  have hpipe : (d.issue i eff).pipeline.map Prod.snd =
      d.pipeline.map Prod.snd ++ if eff.request.any (·.isWrite) then [i] else [] := by
    show (d.pipeline ++ _).map Prod.snd = _
    rw [List.map_append]
    split <;> rfl
  have hcalls : (d.issue i eff).calls =
      Function.update d.calls i (eff.request.map fun r => { request := r }) := rfl
  constructor
  · rw [hpipe]
    split
    · refine List.nodup_append.mpr ⟨hd.once, List.pairwise_singleton _ i, fun j hj k hk => ?_⟩
      rw [List.mem_singleton.mp hk]
      rintro rfl
      exact hi hj
    · rw [List.append_nil]
      exact hd.once
  · intro j
    rw [hpipe, hcalls, List.mem_append]
    by_cases hj : j = i
    · subst hj
      rw [Function.update_self]
      cases heff : eff.request with
      | none => simp [hi]
      | some r => simp [hi]
    · rw [Function.update_of_ne hj, ← hd.waiting j]
      refine or_iff_left fun hmem => hj ?_
      split at hmem
      · exact List.mem_singleton.mp hmem
      · cases hmem

/-- An answered call is no longer one that waits. -/
theorem not_waiting_answered {d : Device} {i : Nat} {r : Request} {a : Answer} :
    ¬ ∃ r', (d.answered i r a).calls i = some ⟨r', none⟩ ∧ r'.isWrite = true := by
  rintro ⟨r', h, -⟩
  have hself : (d.answered i r a).calls i = r.after a := Function.update_self ..
  rw [hself] at h
  unfold Request.after at h
  split at h <;> cases h

theorem calls_answered_of_ne {d : Device} {i j : Nat} (hj : j ≠ i) (r : Request) (a : Answer) :
    (d.answered i r a).calls j = d.calls j :=
  Function.update_of_ne hj ..

/-- A call that is no write is not in the pipeline. -/
theorem queued_answered_other {d : Device} (hd : Queued d) {i : Nat} {r : Request} {a : Answer}
    (hcall : d.calls i = some ⟨r, none⟩) (hw : r.isWrite = false) : Queued (d.answered i r a) := by
  have hi : i ∉ d.pipeline.map Prod.snd := hd.not_mem fun r' hr' => by
    rw [hcall] at hr'
    cases hr'
    exact hw
  have hpipe : (d.answered i r a).pipeline = d.pipeline := pipeline_answered_other hw
  refine ⟨hpipe ▸ hd.once, fun j => ?_⟩
  rw [hpipe]
  by_cases hj : j = i
  · subst hj
    exact iff_of_false hi not_waiting_answered
  · rw [calls_answered_of_ne hj]
    exact hd.waiting j

/-- The write that was sent leaves the pipeline. -/
theorem queued_answered_write {d : Device} (hd : Queued d) {i : Nat} {r : Request} {a : Answer}
    (hw : r.isWrite = true) (hnext : d.nextWrite = some i) : Queued (d.answered i r a) := by
  obtain ⟨front, rest, hpipe, -, hrest⟩ := pipeline_answered_write a hw hnext
  have hsplit : d.pipeline.map Prod.snd =
      front.map Prod.snd ++ i :: rest.map Prod.snd := by
    rw [hpipe, List.map_append, List.map_cons]
  have honce := hd.once
  rw [hsplit, List.nodup_middle, List.nodup_cons, ← List.map_append] at honce
  refine ⟨hrest ▸ honce.2, fun j => ?_⟩
  rw [hrest]
  by_cases hj : j = i
  · subst hj
    exact iff_of_false honce.1 not_waiting_answered
  · rw [calls_answered_of_ne hj, ← hd.waiting j, hsplit, List.map_append, List.mem_append,
      List.mem_append, List.mem_cons, or_iff_right hj]

theorem queued_answered {d : Device} (hd : Queued d) {i : Nat} {r : Request} {a : Answer}
    (hcall : d.calls i = some ⟨r, none⟩) (hnext : r.isWrite = true → d.nextWrite = some i) :
    Queued (d.answered i r a) := by
  cases hw : r.isWrite with
  | false => exact queued_answered_other hd hcall hw
  | true => exact queued_answered_write hd hw (hnext hw)

theorem queued_step {d d' : Device} {e : Event} (hl : Lives d) (hd : Queued d)
    (h : Step d e d') : Queued d' := by
  cases h with
  | @invoke self inv eff heff =>
      have hd' : Queued { d with taps := d.taps ++ [Tap.mk self inv d.currentUser] } :=
        ⟨hd.once, hd.waiting⟩
      refine queued_issue hd' (hd.not_mem fun r hcall => ?_) eff
      rw [(hl.unborn _ (Nat.le_refl _)).1] at hcall
      cases hcall
  | serve hcall _ hnext => exact queued_answered hd hcall hnext
  | @deliver i r a eff hcall _ heff =>
      have hd' : Queued { d with history := (i, .delivered r a) :: d.history } :=
        ⟨hd.once, hd.waiting⟩
      refine queued_issue hd' (hd.not_mem fun r' hcall' => ?_) eff
      rw [hcall] at hcall'
      cases hcall'
  | announce _ => exact ⟨hd.once, hd.waiting⟩
  | auth => exact ⟨hd.once, hd.waiting⟩

theorem queued_of_run {b : Backend} {evs : List Event} {d : Device}
    (h : run next (launch b) evs = some d) : Queued d := by
  have hlaunch : Queued (launch b) := by
    refine ⟨List.nodup_nil, fun i => iff_of_false List.not_mem_nil ?_⟩
    rintro ⟨r, hcall, -⟩
    cases hcall
  refine (run_invariant (P := fun d => Lives d ∧ Queued d) (fun {d e d'} ih hs => ?_)
    ⟨lives_launch b, hlaunch⟩ h).2
  have hstep := step_of_next hs
  exact ⟨lives_step ih.1 hstep, queued_step ih.1 ih.2 hstep⟩

/-- Firestore's user once it has heard all there is to hear. -/
def announcedUser (d : Device) : Option User :=
  d.announcements.foldl (fun _ x => x.user) d.firestoreUser

theorem userAfter_of_signsIn {b : Backend} {r : Request} {a : Answer} (h : a.signsIn = false) :
    b.userAfter r a = b.currentUser := by
  unfold Backend.userAfter
  split
  · cases h
  · cases h
  · rfl

theorem announcedUser_step {d d' : Device} {e : Event} (hd : d.announcedUser = d.currentUser)
    (h : Step d e d') : d'.announcedUser = d'.currentUser := by
  cases h with
  | invoke _ => exact hd
  | @serve i r a _ _ _ =>
      show (d.announcements ++ _).foldl _ _ = d.userAfter r a
      cases hsign : a.signsIn with
      | false =>
          rw [if_neg Bool.false_ne_true, List.append_nil, userAfter_of_signsIn hsign]
          exact hd
      | true =>
          rw [if_pos rfl, List.foldl_append]
          rfl
  | deliver _ _ _ => exact hd
  | @announce x rest hann =>
      rw [announcedUser, hann] at hd
      exact hd
  | auth =>
      show (d.announcements ++ _).foldl _ _ = _
      rw [List.foldl_append]
      rfl

/-- Firestore is behind by the announcements that are pending and by nothing
else. -/
theorem announcedUser_of_run {b : Backend} {evs : List Event} {d : Device}
    (h : run next (launch b) evs = some d) : d.announcedUser = d.currentUser :=
  run_invariant (P := fun d => d.announcedUser = d.currentUser)
    (fun ih hs => announcedUser_step ih (step_of_next hs)) rfl h

theorem firestoreUser_of_heard {d : Device} (hd : d.announcedUser = d.currentUser)
    (hheard : d.announcements = []) : d.firestoreUser = d.currentUser := by
  rw [announcedUser, hheard] at hd
  exact hd

/-- One user and one queue, kept in order. -/
structure InOrder (user : Option User) (d : Device) : Prop where
  firestoreUser : d.firestoreUser = user
  announcements : d.announcements = []
  queue : ∀ p ∈ d.pipeline, p.1 = user
  order : asked d.history = (d.pipeline.map Prod.snd).reverse ++ acked d.history

section

variable {user : Option User} {d : Device}

theorem inOrder_launch (b : Backend) : InOrder b.currentUser (launch b) := by
  refine ⟨rfl, rfl, fun p hp => ?_, rfl⟩
  cases hp

theorem InOrder.issue (hd : InOrder user d) (i : Nat) (eff : Effects) :
    InOrder user (d.issue i eff) := by
  refine ⟨hd.firestoreUser, hd.announcements, fun p hp => ?_, ?_⟩
  · rcases List.mem_append.mp hp with hp | hp
    · exact hd.queue p hp
    · split at hp
      · rw [List.mem_singleton.mp hp]
        exact hd.firestoreUser
      · cases hp
  · show asked ((deeds eff).map (i, ·) ++ d.history) =
      ((d.pipeline ++ _).map Prod.snd).reverse ++ acked ((deeds eff).map (i, ·) ++ d.history)
    rw [asked_append, asked_deeds, hd.order, acked_append, acked_deeds]
    split <;> simp

theorem InOrder.tapped (hd : InOrder user d) (self : Nat) (inv : Invocation) (eff : Effects) :
    InOrder user (d.tapped self inv eff) := by
  have hd' : InOrder user { d with taps := d.taps ++ [Tap.mk self inv d.currentUser] } :=
    ⟨hd.firestoreUser, hd.announcements, hd.queue, hd.order⟩
  exact hd'.issue _ eff

theorem InOrder.resumed (hd : InOrder user d) (i : Nat) (r : Request) (a : Answer)
    (eff : Effects) : InOrder user (d.resumed i r a eff) := by
  have hd' : InOrder user { d with history := (i, .delivered r a) :: d.history } :=
    ⟨hd.firestoreUser, hd.announcements, hd.queue, hd.order⟩
  exact hd'.issue _ eff

/-- Nobody signs in, and of the writes the first one is answered. -/
theorem InOrder.answered (hd : InOrder user d) {i : Nat} {r : Request} {a : Answer}
    (hsign : a.signsIn = false) (hnext : r.isWrite = true → d.nextWrite = some i) :
    InOrder user (d.answered i r a) := by
  have hquiet : (d.answered i r a).announcements = [] := by
    show d.announcements ++ (if a.signsIn = true then _ else _) = []
    rw [hsign, if_neg Bool.false_ne_true, hd.announcements, List.append_nil]
  have hasked : asked (d.answered i r a).history = asked d.history := rfl
  cases hw : r.isWrite with
  | false =>
      have hpipe : (d.answered i r a).pipeline = d.pipeline := pipeline_answered_other hw
      refine ⟨hd.firestoreUser, hquiet, hpipe ▸ hd.queue, ?_⟩
      rw [hpipe, hasked, acked_answered, hw, if_neg Bool.false_ne_true]
      exact hd.order
  | true =>
      obtain ⟨front, rest, hpipe, hfront, hrest⟩ := pipeline_answered_write a hw (hnext hw)
      -- all are of one user, so nothing is before it
      obtain rfl : front = [] := by
        refine List.eq_nil_iff_forall_not_mem.mpr fun p hp => hfront p hp ?_
        rw [hd.firestoreUser]
        exact hd.queue p (hpipe ▸ List.mem_append_left _ hp)
      rw [List.nil_append] at hrest
      refine ⟨hd.firestoreUser, hquiet, fun p hp => ?_, ?_⟩
      · rw [hrest] at hp
        exact hd.queue p (hpipe ▸ List.mem_cons_of_mem _ hp)
      · rw [hrest, hasked, acked_answered, hw, if_pos rfl, hd.order, hpipe]
        simp

/-- Once no callback is outstanding every write asked for has been
acknowledged, in the order in which they were asked for. -/
theorem InOrder.quiescent (hd : InOrder user d) (hqueued : Queued d) (hq : d.Quiescent) :
    acked d.history = asked d.history := by
  have hpipe : d.pipeline.map Prod.snd = [] := by
    refine List.eq_nil_iff_forall_not_mem.mpr fun i hi => ?_
    obtain ⟨r, hcall, -⟩ := (hqueued.waiting i).mp hi
    rw [hq i] at hcall
    cases hcall
  rw [hd.order, hpipe]
  rfl

end

end Device

end Pompeius
