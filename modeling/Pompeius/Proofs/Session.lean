import Pompeius.Proofs.Provenance

/-!
# Who is signed in

The program signs users in and never out: a successful `createUser` signs in
the account it opens, a successful `signIn` the account of its email, and
nothing else touches the session. Auth does it while it answers, before the
program hears of it and before Firestore does. Answers of several taps
interleave, and accounts are opened in between.

`session_of_run` says who it is all the same: the user of the success that was
served last, looked up in the accounts as they are at the end. The lookup does
not depend on when it is done, because a sign-in that succeeded had its account,
and whatever is opened later has another email (`userOf_cons_of_ne`). Firestore
gets there once it has heard the announcements that are pending.
-/

namespace Pompeius

open Lib Device

/-- The user of an email. -/
def userOf (accounts : List Account) (email : String) : Option User :=
  (accounts.find? fun x => x.email == email).map fun x => ⟨x.uid⟩

/-- The user an answer signs in. -/
def signedIn (accounts : List Account) : Deed → Option User
  | .served (.createUser ..) (.createUser reply) => reply.value.map User.mk
  | .served (.signIn email _) (.signIn (.success _)) => userOf accounts email
  | _ => none

theorem userOf_cons_of_ne {accounts : List Account} {x : Account} {email : String}
    (h : x.email ≠ email) : userOf (x :: accounts) email = userOf accounts email := by
  rw [userOf, List.find?_cons_of_neg (by simpa using h)]
  rfl

theorem exists_userOf {accounts : List Account} {x : Account} (hx : x ∈ accounts) :
    ∃ y ∈ accounts, y.email = x.email ∧ userOf accounts x.email = some ⟨y.uid⟩ := by
  have hsome : (accounts.find? fun y => y.email == x.email).isSome :=
    List.find?_isSome.mpr ⟨x, hx, beq_self_eq_true _⟩
  obtain ⟨y, hy⟩ := Option.isSome_iff_exists.mp hsome
  refine ⟨y, List.mem_of_find?_eq_some hy, by simpa using List.find?_some hy, ?_⟩
  rw [userOf, hy]
  rfl

/-- What is being delivered was served. -/
theorem served_of_life {t : Tap} {call : Option Call} {ds : List Deed} (h : Life t call ds) :
    (∀ r a, call = some ⟨r, some a⟩ → .served r a ∈ ds) ∧
      ∀ r a, .delivered r a ∈ ds → .served r a ∈ ds := by
  induction h with
  | tap _ =>
      refine ⟨fun r a hcall => ?_, fun r a hmem => ?_⟩
      · obtain ⟨r', -, heq⟩ := Option.map_eq_some_iff.mp hcall
        cases heq
      · rcases kind_of_mem_deeds hmem with ⟨e, heq⟩ | ⟨r', heq⟩ <;> cases heq
  | @serve r a ds _ _ ih =>
      refine ⟨fun r' a' hcall => ?_, fun r' a' hmem => ?_⟩
      · unfold Request.after at hcall
        split at hcall <;> cases hcall
        exact List.mem_cons_self
      · rcases List.mem_cons.mp hmem with heq | hmem
        · cases heq
        · exact List.mem_cons_of_mem _ (ih.2 r' a' hmem)
  | @deliver r a eff ds _ _ ih =>
      refine ⟨fun r' a' hcall => ?_, fun r' a' hmem => ?_⟩
      · obtain ⟨r'', -, heq⟩ := Option.map_eq_some_iff.mp hcall
        cases heq
      · rcases List.mem_append.mp hmem with hmem | hmem
        · rcases kind_of_mem_deeds hmem with ⟨e, heq⟩ | ⟨r'', heq⟩ <;> cases heq
        · refine List.mem_append_right _ (List.mem_cons_of_mem _ ?_)
          rcases List.mem_cons.mp hmem with heq | hmem
          · cases heq
            exact ih.1 r a rfl
          · exact ih.2 r' a' hmem

namespace Device

section

variable {b : Backend} {evs : List Event} {d d' : Device} {e : Event}

theorem Lives.served_of_delivered (hl : Lives d) {i : Nat} {r : Request} {a : Answer}
    (h : (i, .delivered r a) ∈ d.history) : (i, .served r a) ∈ d.history := by
  obtain ⟨t, ht⟩ := hl.exists_tap_of_mem h
  exact mem_deedsOf.mp ((served_of_life (hl.born i t ht)).2 r a (mem_deedsOf.mpr h))

/-- A sign-in that succeeded has its account. -/
def Known (d : Device) : Prop :=
  ∀ i email password, (i, .served (.signIn email password) (.signIn (.success ()))) ∈ d.history →
    ∃ x ∈ d.accounts, x.email = email ∧ x.password = password

theorem known_step (hk : Known d) (h : Step d e d') : Known d' := by
  cases h with
  | invoke _ => exact fun i email password hmem => hk i email password (served_of_mem_tapped hmem)
  | deliver _ _ _ =>
      exact fun i email password hmem => hk i email password (served_of_mem_resumed hmem)
  | announce _ => exact hk
  | auth => exact hk
  | @serve i r a _ hperm _ =>
      intro j email password hmem
      have hold : (∃ x ∈ d.accounts, x.email = email ∧ x.password = password) →
          ∃ x ∈ d.accountsAfter r a, x.email = email ∧ x.password = password := by
        rintro ⟨x, hx, hxs⟩
        refine ⟨x, ?_, hxs⟩
        obtain hsame | ⟨_, _, _, _, _, _, -, -, -, hadded, -⟩ := accountsAfter_eq hperm
        · rw [hsame]
          exact hx
        · rw [hadded]
          exact List.mem_cons_of_mem _ hx
      rcases List.mem_cons.mp hmem with heq | hmem
      · cases heq
        obtain ⟨x, hx, hmatch⟩ := List.any_eq_true.mp hperm
        simp only [Bool.and_eq_true, beq_iff_eq] at hmatch
        exact hold ⟨x, hx, hmatch⟩
      · exact hold (hk j email password hmem)

theorem known_of_run (h : run next (launch b) evs = some d) : Known d :=
  run_invariant (P := Known) (fun hk hs => known_step hk (step_of_next hs))
    (fun _ _ _ hmem => absurd hmem List.not_mem_nil) h

/-- The users signed in by the answers that were served, the last one first. -/
def signIns (d : Device) : List User := d.history.filterMap fun p => signedIn d.accounts p.2

theorem signIns_deeds (accounts : List Account) (i : Nat) (eff : Effects)
    (hist : List (Nat × Deed)) :
    ((deeds eff).map (i, ·) ++ hist).filterMap (fun p => signedIn accounts p.2) =
      hist.filterMap fun p => signedIn accounts p.2 := by
  rw [List.filterMap_append, filterMap_deeds (fun _ => rfl) fun _ => rfl]
  rfl

/-- Accounts opened later change nothing for those who have signed in. -/
theorem signIns_accountsAfter (hk : Known d) {r : Request} {a : Answer}
    (hperm : d.permits r a = true) :
    (d.history.filterMap fun p => signedIn (d.accountsAfter r a) p.2) = d.signIns := by
  obtain hsame | ⟨email, password, firstName, lastName, reply, uid, -, -, -, hadded, hdistinct⟩ :=
    accountsAfter_eq hperm
  · rw [hsame]
    rfl
  · refine List.filterMap_congr fun p hp => ?_
    obtain ⟨j, x⟩ := p
    show signedIn _ x = signedIn _ x
    unfold signedIn
    split
    · rfl
    · rename_i email' password' u
      obtain ⟨y, hy, rfl, -⟩ := hk j _ _ hp
      rw [hadded]
      exact userOf_cons_of_ne (hdistinct y hy).1
    · rfl

theorem userAfter_eq {r : Request} {a : Answer} (hperm : d.permits r a = true) :
    d.userAfter r a = (signedIn (d.accountsAfter r a) (.served r a)).or d.currentUser := by
  cases r with
  | createUser email password firstName lastName =>
      cases a with
      | createUser reply => cases reply <;> rfl
      | _ => rfl
  | signIn email password =>
      cases a with
      | signIn reply =>
          cases reply with
          | failure e => rfl
          | success u =>
              obtain ⟨x, hx, hmatch⟩ := List.any_eq_true.mp hperm
              simp only [Bool.and_eq_true, beq_iff_eq] at hmatch
              obtain ⟨y, -, -, huser⟩ := exists_userOf hx
              rw [hmatch.1] at huser
              show userOf d.accounts email = (userOf d.accounts email).or d.currentUser
              rw [huser]
              rfl
      | _ => rfl
  | _ => cases a <;> rfl

theorem session_step (hk : Known d) {u : Option User} (ih : d.currentUser = d.signIns.head?.or u)
    (h : Step d e d') (he : ∀ user, e ≠ .auth user) :
    d'.currentUser = d'.signIns.head?.or u := by
  cases h with
  | @invoke self inv eff _ =>
      have hsame : (d.tapped self inv eff).signIns = d.signIns :=
        signIns_deeds d.accounts d.taps.length eff d.history
      rw [hsame]
      exact ih
  | @serve i r a _ hperm _ =>
      have hnew : (d.answered i r a).signIns.head? =
          (signedIn (d.accountsAfter r a) (.served r a)).or d.signIns.head? := by
        show (((i, Deed.served r a) :: d.history).filterMap fun p =>
          signedIn (d.accountsAfter r a) p.2).head? = _
        rw [List.filterMap_cons, signIns_accountsAfter hk hperm]
        cases signedIn (d.accountsAfter r a) (.served r a) <;> rfl
      rw [hnew, Option.or_assoc, ← ih]
      exact userAfter_eq hperm
  | @deliver i r a eff hcall _ _ =>
      have hsame : (d.resumed i r a eff).signIns = d.signIns :=
        signIns_deeds d.accounts i eff ((i, .delivered r a) :: d.history)
      rw [hsame]
      exact ih
  | announce _ => exact ih
  | auth => exact absurd rfl (he _)

theorem currentUser_of_run (h : run next (launch b) evs = some d)
    (hevs : ∀ user, .auth user ∉ evs) : d.currentUser = d.signIns.head?.or b.currentUser := by
  refine run_rec (motive := fun evs d => (∀ user, .auth user ∉ evs) →
    d.currentUser = d.signIns.head?.or b.currentUser) (fun _ => rfl)
    (fun {es d e d'} hrun ih hs hno => ?_) h hevs
  refine session_step (known_of_run hrun)
    (ih fun user hmem => hno user (List.mem_append_left _ hmem)) (step_of_next hs) ?_
  rintro user rfl
  exact hno user (List.mem_append_right _ List.mem_cons_self)

/-- Whom an answer signs in has an account. -/
theorem account_of_signIns (h : run next (launch b) evs = some d) {user : User}
    (huser : user ∈ d.signIns) : ∃ x ∈ d.accounts, user = ⟨x.uid⟩ := by
  obtain ⟨⟨i, x⟩, hmem, heq⟩ := List.mem_filterMap.mp huser
  change signedIn d.accounts x = some user at heq
  unfold signedIn at heq
  split at heq
  · rename_i reply
    obtain ⟨uid, hvalue, rfl⟩ := Option.map_eq_some_iff.mp heq
    cases reply with
    | success uid' =>
        cases hvalue
        exact ⟨_, account_of_served h hmem, rfl⟩
    | _ => cases hvalue
  · obtain ⟨y, hy, rfl, -⟩ := known_of_run h i _ _ hmem
    obtain ⟨z, hz, -, hz'⟩ := exists_userOf hy
    rw [hz'] at heq
    cases heq
    exact ⟨z, hz, rfl⟩
  · cases heq

/-- Nobody is ever signed out. -/
theorem currentUser_isSome_step (h : Step d e d') (he : ∀ user, e ≠ .auth user)
    (hsome : d.currentUser.isSome) : d'.currentUser.isSome := by
  cases h with
  | @serve i r a _ hperm _ =>
      show (d.userAfter r a).isSome
      rw [userAfter_eq hperm, Option.isSome_or, hsome, Bool.or_true]
  | auth => exact absurd rfl (he _)
  | _ => exact hsome

theorem Lives.known_delivered (hl : Lives d) (hk : Known d) {i : Nat} {email password : String}
    (h : (i, .delivered (.signIn email password) (.signIn (.success ()))) ∈ d.history) :
    ∃ x ∈ d.accounts, x.email = email ∧ x.password = password :=
  hk i email password (hl.served_of_delivered h)

/-- As long as nobody signs in or out behind its back, whom the last success was
about is signed in, whether or not the program has heard of it. That user has an
account, a sign-in that succeeded named the password of one, and once somebody is
signed in somebody always is. Firestore is behind by the announcements that are
pending. -/
theorem session_of_run (h : run next (launch b) evs = some d) (hevs : ∀ user, .auth user ∉ evs) :
    d.currentUser = d.signIns.head?.or b.currentUser ∧
    (∀ user ∈ d.signIns, ∃ x ∈ d.accounts, user = ⟨x.uid⟩) ∧
    (∀ i email password,
      (i, .served (.signIn email password) (.signIn (.success ()))) ∈ d.history →
        ∃ x ∈ d.accounts, x.email = email ∧ x.password = password) ∧
    (∀ more d', run next d more = some d' → (∀ user, .auth user ∉ more) →
      d.currentUser.isSome → d'.currentUser.isSome) ∧
    d.announcements.foldl (fun _ x => x.user) d.firestoreUser = d.currentUser := by
  refine ⟨currentUser_of_run h hevs, fun user huser => account_of_signIns h huser,
    known_of_run h, fun more d' hmore hno hsome => ?_, announcedUser_of_run h⟩
  refine run_rec (motive := fun more d' => (∀ user, .auth user ∉ more) → d'.currentUser.isSome)
    (fun _ => hsome) (fun {es t e t'} _ ih hs hno => ?_) hmore hno
  refine currentUser_isSome_step (step_of_next hs) ?_
    (ih fun user hmem => hno user (List.mem_append_left _ hmem))
  rintro user rfl
  exact hno user (List.mem_append_right _ List.mem_cons_self)

theorem session_of_run_ada :
    ∃ d, run next (launch { accounts := [⟨"ada@example.org", "passw0rd!", "u1"⟩] })
        [.invoke 0 (.loginButton { emailField := ⟨"ada@example.org "⟩
                                   passwordField := ⟨"passw0rd!"⟩ }),
         .serve 0 (.signIn (.success ()))] = some d ∧ d.signIns = [⟨"u1"⟩] ∧
      d.currentUser = d.signIns.head?.or none ∧ d.firestoreUser = none := by
  have hrun : run next (launch { accounts := [⟨"ada@example.org", "passw0rd!", "u1"⟩] })
      [.invoke 0 (.loginButton { emailField := ⟨"ada@example.org "⟩
                                 passwordField := ⟨"passw0rd!"⟩ }),
       .serve 0 (.signIn (.success ()))] = some _ := rfl
  exact ⟨_, hrun, rfl, (session_of_run hrun (by simp)).1, rfl⟩

end

end Device

end Pompeius
