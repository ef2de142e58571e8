import Pompeius.Proofs.Documents
import Pompeius.Proofs.History
import Pompeius.Proofs.Stages

/-!
# Which submission of page 1 wins

A submission uploads the image, asks for its URL, and writes the document,
each from the callback of the one before. Two submissions in flight are two
such chains with nothing between them: the object in the bucket is the image
uploaded last, and the document holds the texts of the submission whose
`downloadURL` callback came last, because Firestore applies the writes of a user
in the order in which they were asked for.

`Submitting` carries both facts along a run in which one signed-in user
submits page 1 and nothing fails. `last_submission_wins_iff` reads off the
answer once no callback is outstanding: the last submission wins exactly when
the last upload and the last delivered callback are its own, or carry the same
image and the same texts.
-/

namespace Pompeius

open Lib Device

namespace Device

/-- Page 1 is submitted with an image, and nothing fails. -/
def Event.SubmitsPage1 : Event → Prop
  | .invoke _ (.profileContinue self) => self.imageData.isSome = true
  | .serve _ a => a.succeeded = true
  | .deliver _ => True
  | _ => False

/-- The tap whose callback was delivered last. -/
def lastDelivered (evs : List Event) : Option Nat :=
  (evs.filterMap fun e => match e with
    | .deliver i => some i
    | _ => none).getLast?

/-- The tap whose upload took effect last. -/
def lastUploaded (evs : List Event) : Option Nat :=
  (evs.filterMap fun e => match e with
    | .serve i (.putData _) => some i
    | _ => none).getLast?

theorem lastDelivered_snoc_deliver (evs : List Event) (i : Nat) :
    lastDelivered (evs ++ [.deliver i]) = some i := by
  simp [lastDelivered]

theorem lastDelivered_snoc {evs : List Event} {e : Event} (h : ∀ i, e ≠ .deliver i) :
    lastDelivered (evs ++ [e]) = lastDelivered evs := by
  cases e with
  | deliver i => exact absurd rfl (h i)
  | _ => simp [lastDelivered]

theorem lastUploaded_snoc_serve (evs : List Event) (i : Nat) (reply : Reply Unit) :
    lastUploaded (evs ++ [.serve i (.putData reply)]) = some i := by
  simp [lastUploaded]

theorem lastUploaded_snoc {evs : List Event} {e : Event}
    (h : ∀ i reply, e ≠ .serve i (.putData reply)) :
    lastUploaded (evs ++ [e]) = lastUploaded evs := by
  cases e with
  | serve i a =>
      cases a with
      | putData reply => exact absurd rfl (h i reply)
      | _ => simp [lastUploaded]
  | _ => simp [lastUploaded]

/-- The object of a user. -/
abbrev objectOf (user : User) : StorageReference :=
  MyProfileViewController.storageProfileRef user.uid

structure Submitting (user : User) (evs : List Event) (d : Device) : Prop where
  signedIn : d.currentUser = some user
  inOrder : InOrder (some user) d
  page1 : ∀ t ∈ d.taps, ∃ self imageData, t.invocation = .profileContinue self ∧
    t.user = some user ∧ self.imageData = some imageData
  succeeded : ∀ i r a, (i, .served r a) ∈ d.history → a.succeeded = true
  uploaded : ∀ j, lastUploaded evs = some j → ∃ t self imageData, d.taps[j]? = some t ∧
    t.invocation = .profileContinue self ∧ self.imageData = some imageData ∧
    d.bucket (objectOf user) = some ⟨imageData, "image/jpg"⟩
  nothingUploaded : lastUploaded evs = none →
    ∀ i ref object dict a, (i, .served (.putData ref object dict) a) ∉ d.history
  delivered : ∀ i, lastDelivered evs = some i → (asked d.history).head? = some i ∨
    ∃ ref dict a, d.calls i = some ⟨.downloadURL ref dict, a⟩
  nothingDelivered : lastDelivered evs = none → asked d.history = []

section

variable {user : User} {b : Backend} {evs : List Event} {d : Device}

theorem submitting_launch (huser : b.currentUser = some user) :
    Submitting user [] (launch b) where
  signedIn := huser
  inOrder := huser ▸ inOrder_launch b
  page1 := nofun
  succeeded := nofun
  uploaded := nofun
  nothingUploaded := nofun
  delivered := nofun
  nothingDelivered _ := rfl

/-- Each tap of such a run is in a stage of its upload. -/
theorem Submitting.upload (hd : Submitting user evs d) (h : run next (launch b) evs = some d)
    {i : Nat} {t : Tap} (ht : d.taps[i]? = some t) :
    ∃ self imageData, t.invocation = .profileContinue self ∧
      self.imageData = some imageData ∧
      Upload (objectOf user) ⟨imageData, "image/jpg"⟩ self.submitted (d.calls i)
        (d.deedsOf i) := by
  obtain ⟨self, imageData, hinv, huser, himage⟩ := hd.page1 t (List.mem_of_getElem? ht)
  exact ⟨self, imageData, hinv, himage,
    upload_of_life hinv huser himage (life_of_run h ht)⟩

theorem submitting_invoke (hd : Submitting user evs d) (h : run next (launch b) evs = some d)
    {n : Nat} {inv : Invocation} {eff : Effects} (he : (Event.invoke n inv).SubmitsPage1)
    (heff : inv.run d.currentUser = .ok eff) :
    Submitting user (evs ++ [.invoke n inv]) (d.tapped n inv eff) := by
  cases inv with
  | profileContinue self =>
      obtain ⟨imageData, himage⟩ := Option.isSome_iff_exists.mp he
      change self.continueButton d.currentUser = _ at heff
      rw [self.continueButton_eq, himage, hd.signedIn] at heff
      cases heff
      have hup : lastUploaded (evs ++ [.invoke n (.profileContinue self)]) = lastUploaded evs :=
        lastUploaded_snoc nofun
      have hdel : lastDelivered (evs ++ [.invoke n (.profileContinue self)]) =
          lastDelivered evs := lastDelivered_snoc nofun
      constructor
      · exact hd.signedIn
      · exact hd.inOrder.tapped _ _ _
      · intro t ht
        rcases List.mem_append.mp ht with ht | ht
        · exact hd.page1 t ht
        · rw [List.mem_singleton.mp ht]
          exact ⟨self, imageData, rfl, hd.signedIn, himage⟩
      · intro i r a hmem
        exact hd.succeeded i r a (served_of_mem_tapped hmem)
      · intro j hj
        rw [hup] at hj
        obtain ⟨t, self', imageData', ht, hrest⟩ := hd.uploaded j hj
        refine ⟨t, self', imageData', ?_, hrest⟩
        show (d.taps ++ [_])[j]? = some t
        rw [List.getElem?_append_left (List.getElem?_eq_some_iff.mp ht).1, ht]
      · intro hj i ref object dict a hmem
        rw [hup] at hj
        exact hd.nothingUploaded hj i ref object dict a (served_of_mem_tapped hmem)
      · intro i hi
        rw [hdel] at hi
        refine (hd.delivered i hi).imp id ?_
        rintro ⟨ref, dict, a, hcall⟩
        have hne : i ≠ d.taps.length := by
          rintro rfl
          rw [((lives_of_run h).unborn _ (Nat.le_refl _)).1] at hcall
          cases hcall
        refine ⟨ref, dict, a, ?_⟩
        show Function.update d.calls _ _ i = _
        rw [Function.update_of_ne hne, hcall]
      · intro hi
        rw [hdel] at hi
        exact hd.nothingDelivered hi
  | _ => exact absurd he id

/-- A call that waits for its URL still waits when the backend has answered, or
has just got it. -/
theorem Submitting.delivered_answered (hd : Submitting user evs d) {i j : Nat} {r : Request}
    (a : Answer) (hcall : d.calls i = some ⟨r, none⟩) (hj : lastDelivered evs = some j) :
    (asked d.history).head? = some j ∨
      ∃ ref dict a', (d.answered i r a).calls j = some ⟨.downloadURL ref dict, a'⟩ := by
  refine (hd.delivered j hj).imp id ?_
  rintro ⟨ref, dict, a', hcall'⟩
  show ∃ ref dict a', Function.update d.calls i _ j = _
  by_cases hji : j = i
  · subst hji
    rw [hcall] at hcall'
    cases hcall'
    exact ⟨ref, dict, some a, Function.update_self ..⟩
  · exact ⟨ref, dict, a', by rw [Function.update_of_ne hji, hcall']⟩

/-- What a step that serves a call has to show of the uploads alone. -/
theorem Submitting.answered (hd : Submitting user evs d) {i : Nat} {r : Request} {a : Answer}
    (hcall : d.calls i = some ⟨r, none⟩) (hsucc : a.succeeded = true)
    (hsign : a.signsIn = false) (hnext : r.isWrite = true → d.nextWrite = some i)
    (huploaded : ∀ j, lastUploaded (evs ++ [.serve i a]) = some j →
      ∃ t self imageData, d.taps[j]? = some t ∧ t.invocation = .profileContinue self ∧
        self.imageData = some imageData ∧
        d.bucketAfter r a (objectOf user) = some ⟨imageData, "image/jpg"⟩)
    (hnothing : lastUploaded (evs ++ [.serve i a]) = none →
      ∀ j ref object dict a', (j, .served (.putData ref object dict) a') ∉
        (d.answered i r a).history) :
    Submitting user (evs ++ [.serve i a]) (d.answered i r a) := by
  have hdel : lastDelivered (evs ++ [.serve i a]) = lastDelivered evs :=
    lastDelivered_snoc nofun
  refine ⟨(userAfter_of_signsIn hsign).trans hd.signedIn, hd.inOrder.answered hsign hnext, hd.page1,
    fun j r' a' hmem => ?_, huploaded, hnothing, fun j hj => ?_, fun hn => ?_⟩
  · rcases List.mem_cons.mp hmem with heq | hmem
    · cases heq
      exact hsucc
    · exact hd.succeeded j r' a' hmem
  · rw [hdel] at hj
    exact hd.delivered_answered a hcall hj
  · rw [hdel] at hn
    exact hd.nothingDelivered hn

/-- Any call but an upload leaves the bucket alone. -/
theorem submitting_serve_other (hd : Submitting user evs d) {i : Nat} {r : Request} {a : Answer}
    (hcall : d.calls i = some ⟨r, none⟩) (hsucc : a.succeeded = true)
    (hsign : a.signsIn = false) (hnext : r.isWrite = true → d.nextWrite = some i)
    (ha : ∀ reply, a ≠ .putData reply) (hr : ∀ ref object dict, r ≠ .putData ref object dict)
    (hbucket : d.bucketAfter r a = d.bucket) :
    Submitting user (evs ++ [.serve i a]) (d.answered i r a) := by
  have hlast : lastUploaded (evs ++ [.serve i a]) = lastUploaded evs :=
    lastUploaded_snoc fun j reply heq => ha reply (by cases heq; rfl)
  refine hd.answered hcall hsucc hsign hnext ?_ ?_
  · rw [hlast, hbucket]
    exact hd.uploaded
  · rw [hlast]
    intro hn j ref object dict a' hmem
    rcases List.mem_cons.mp hmem with heq | hmem
    · cases heq
      exact hr ref object dict rfl
    · exact hd.nothingUploaded hn j ref object dict a' hmem

theorem submitting_serve (hd : Submitting user evs d) (h : run next (launch b) evs = some d)
    {i : Nat} {r : Request} {a : Answer} (he : (Event.serve i a).SubmitsPage1)
    (hcall : d.calls i = some ⟨r, none⟩) (hfit : r.fits a = true)
    (hnext : r.isWrite = true → d.nextWrite = some i) :
    Submitting user (evs ++ [.serve i a]) (d.answered i r a) := by
  obtain ⟨t, ht⟩ := (lives_of_run h).exists_tap hcall
  obtain ⟨self, imageData, hinv, himage, hup⟩ := hd.upload h ht
  rw [hcall] at hup
  generalize d.deedsOf i = ds at hup
  cases hup with
  | uploading =>
      obtain ⟨reply, rfl⟩ := fits_putData hfit
      cases reply with
      | failure e => cases he
      | success _ =>
          refine hd.answered hcall rfl rfl hnext (fun j hj => ?_) fun hn => ?_
          · rw [lastUploaded_snoc_serve] at hj
            cases hj
            exact ⟨t, self, imageData, ht, hinv, himage, Function.update_self ..⟩
          · rw [lastUploaded_snoc_serve] at hn
            cases hn
  | locating =>
      obtain ⟨reply, rfl⟩ := fits_downloadURL hfit
      exact submitting_serve_other hd hcall he rfl hnext nofun nofun rfl
  | writing tokens =>
      obtain ⟨reply, rfl⟩ := fits_setData hfit
      exact submitting_serve_other hd hcall he rfl hnext nofun nofun rfl

theorem submitting_deliver (hd : Submitting user evs d) (h : run next (launch b) evs = some d)
    {i : Nat} {r : Request} {a : Answer} {eff : Effects}
    (hcall : d.calls i = some ⟨r, some a⟩) (heff : completion r a = .ok eff) :
    Submitting user (evs ++ [.deliver i]) (d.resumed i r a eff) := by
  obtain ⟨t, ht⟩ := (lives_of_run h).exists_tap hcall
  obtain ⟨self, imageData, hinv, himage, hup⟩ := hd.upload h ht
  rw [hcall] at hup
  have hlast : lastUploaded (evs ++ [.deliver i]) = lastUploaded evs := lastUploaded_snoc nofun
  have hserved : ∀ r' a', Deed.served r' a' ∈ d.deedsOf i → a'.succeeded = true :=
    fun r' a' hmem => hd.succeeded i r' a' (mem_deedsOf.mp hmem)
  have hrest : ((asked (d.resumed i r a eff).history).head? = some i ∨
      ∃ ref dict a', (d.resumed i r a eff).calls i = some ⟨.downloadURL ref dict, a'⟩) →
      Submitting user (evs ++ [.deliver i]) (d.resumed i r a eff) := by
    intro hdelivered
    refine ⟨hd.signedIn, hd.inOrder.resumed _ _ _ _, hd.page1,
      fun j r' a' hmem => hd.succeeded j r' a' (served_of_mem_resumed hmem), ?_, ?_,
      fun j hj => ?_, fun hn => ?_⟩
    · rw [hlast]
      exact hd.uploaded
    · rw [hlast]
      exact fun hn j ref object dict a' hmem =>
        hd.nothingUploaded hn j ref object dict a' (served_of_mem_resumed hmem)
    · rw [lastDelivered_snoc_deliver] at hj
      cases hj
      exact hdelivered
    · rw [lastDelivered_snoc_deliver] at hn
      cases hn
  generalize d.deedsOf i = ds at hup hserved
  cases hup with
  | uploaded reply =>
      cases reply with
      | failure e => cases hserved _ _ List.mem_cons_self
      | success _ =>
          cases heff
          exact hrest (.inr ⟨_, _, none, Function.update_self ..⟩)
  | located reply =>
      cases reply with
      | failure e => cases hserved _ _ List.mem_cons_self
      | success tokens =>
          cases heff
          exact hrest (.inl rfl)

theorem submitting_of_run (huser : b.currentUser = some user) (hevs : ∀ e ∈ evs, e.SubmitsPage1)
    (h : run next (launch b) evs = some d) : Submitting user evs d := by
  revert hevs
  refine run_rec (motive := fun evs d => (∀ e ∈ evs, e.SubmitsPage1) → Submitting user evs d)
    (fun _ => submitting_launch huser) (fun {es d e d'} hrun ih hs hall => ?_) h
  have hd := ih fun x hx => hall x (List.mem_append_left [e] hx)
  have he := hall e (List.mem_append_right es List.mem_cons_self)
  cases step_of_next hs with
  | invoke heff => exact submitting_invoke hd hrun he heff
  | serve hcall hperm hnext =>
      exact submitting_serve hd hrun he hcall (fits_of_permits hperm) hnext
  | deliver hcall _ heff => exact submitting_deliver hd hrun hcall heff
  | announce _ => exact absurd he id
  | auth => exact absurd he id

/-! ## When no callback is outstanding -/

/-- Every submission has run to its write. -/
theorem Submitting.written (hd : Submitting user evs d) (h : run next (launch b) evs = some d)
    (hq : d.Quiescent) {i : Nat} {t : Tap} (ht : d.taps[i]? = some t) :
    (∃ w c, (i, .request (.setData w c)) ∈ d.history) ∧
      ∃ ref object dict a, (i, .served (.putData ref object dict) a) ∈ d.history := by
  obtain ⟨self, imageData, hinv, himage, hup⟩ := hd.upload h ht
  have hserved : ∀ r' a', Deed.served r' a' ∈ d.deedsOf i → a'.succeeded = true :=
    fun r' a' hmem => hd.succeeded i r' a' (mem_deedsOf.mp hmem)
  have hmem : ∀ x, x ∈ d.deedsOf i → (i, x) ∈ d.history := fun x => mem_deedsOf.mp
  rw [hq i] at hup
  generalize d.deedsOf i = ds at hup hserved hmem
  cases hup with
  | uploadFailed e => cases hserved _ _ (List.mem_cons_of_mem _ List.mem_cons_self)
  | locateFailed e => cases hserved _ _ (List.mem_cons_of_mem _ List.mem_cons_self)
  | written tokens reply =>
      refine ⟨⟨_, _, hmem _ (List.mem_cons_of_mem _ List.mem_cons_self)⟩, ?_⟩
      refine ⟨objectOf user, ⟨imageData, "image/jpg"⟩, self.submitted, .putData (.success ()),
        hmem _ ?_⟩
      simp [writeDeeds, downloadDeeds]

/-- The last write applied belongs to the submission whose callback came
last. -/
theorem Submitting.last_applied (hd : Submitting user evs d)
    (h : run next (launch b) evs = some d) (hq : d.Quiescent) (hne : d.taps ≠ []) :
    ∃ i w rest, applied d.history = (i, w) :: rest ∧ lastDelivered evs = some i := by
  have hfirst : d.taps[0]? = some (d.taps.head hne) := by
    rw [← List.head?_eq_getElem?, List.head?_eq_some_head]
  obtain ⟨⟨w, c, hmem⟩, -⟩ := hd.written h hq hfirst
  have hasked : asked d.history ≠ [] := List.ne_nil_of_mem
    (List.mem_filterMap.mpr ⟨_, hmem, rfl⟩)
  have hfst : (applied d.history).map Prod.fst = asked d.history := by
    rw [← hd.inOrder.quiescent (queued_of_run h) hq]
    exact applied_map_fst fun i r a hx => ⟨fits_of_run h hx, hd.succeeded i r a hx⟩
  cases hlast : lastDelivered evs with
  | none => exact absurd (hd.nothingDelivered hlast) hasked
  | some i =>
      have hhead : (asked d.history).head? = some i := by
        refine (hd.delivered i hlast).resolve_right ?_
        rintro ⟨ref, dict, a, hcall⟩
        rw [hq i] at hcall
        cases hcall
      rw [← hfst] at hhead
      cases happlied : applied d.history with
      | nil => rw [happlied] at hhead; cases hhead
      | cons p rest =>
          rw [happlied] at hhead
          obtain ⟨j, w⟩ := p
          cases hhead
          exact ⟨_, w, rest, rfl, rfl⟩

end

/-! ## The last submission -/

def textKeys : List String :=
  ["occupation", "age", "height", "gender", "country of origin", "country raised in"]

/-- The stored texts and the stored image are those of one submission. -/
structure Wins (user : User) (form : MyProfileViewController) (imageData : Data)
    (d : Device) : Prop where
  texts : ∃ D, d.users "new" = some D ∧ ∀ k ∈ textKeys, D k = form.submitted.lookup k
  image : d.bucket (objectOf user) = some ⟨imageData, "image/jpg"⟩

theorem submitted_eq_iff {self self' : MyProfileViewController} :
    self.submitted = self'.submitted ↔
      ∀ k ∈ textKeys, self.submitted.lookup k = self'.submitted.lookup k := by
  constructor
  · intro h k _
    rw [h]
  · intro h
    have h1 := h "occupation" (by decide)
    have h2 := h "age" (by decide)
    have h3 := h "height" (by decide)
    have h4 := h "gender" (by decide)
    have h5 := h "country of origin" (by decide)
    have h6 := h "country raised in" (by decide)
    simp only [MyProfileViewController.submitted, MyProfileViewController.userDictData]
    rw [Option.some.inj h1, Option.some.inj h2, Option.some.inj h3, Option.some.inj h4,
      Option.some.inj h5, Option.some.inj h6]

theorem profileWrite_texts (self : MyProfileViewController) (url : String) :
    ∀ k ∈ textKeys, (MyProfileViewController.profileWrite self.submitted url).data.lookup k =
      self.submitted.lookup k := by
  intro k hk
  simp only [textKeys, List.mem_cons, List.not_mem_nil, or_false] at hk
  rcases hk with rfl | rfl | rfl | rfl | rfl | rfl <;> rfl

/-- The document at the end of a run holds the texts of the submission whose
callback was delivered last. -/
theorem Submitting.document {user : User} {b : Backend} {evs : List Event} {d : Device}
    (hd : Submitting user evs d) (h : run next (launch b) evs = some d) (hq : d.Quiescent)
    (hne : d.taps ≠ []) :
    ∃ i self D, lastDelivered evs = some i ∧
      (invocations evs)[i]? = some (.profileContinue self) ∧ d.users "new" = some D ∧
      ∀ k ∈ textKeys, D k = self.submitted.lookup k := by
  obtain ⟨i, w, rest, happlied, hlast⟩ := hd.last_applied h hq hne
  obtain ⟨c, hmem⟩ := mem_applied.mp (happlied ▸ List.mem_cons_self : (i, w) ∈ applied d.history)
  obtain ⟨t, ht, hissues⟩ := issues_of_run h hmem rfl
  have husers : d.users = w.apply (rest.foldr (fun p c => p.2.apply c) b.users) := by
    rw [users_of_run h, happlied]
    rfl
  have hinvocation : (invocations evs)[i]? = some t.invocation := by
    rw [← invocations_of_run h, List.getElem?_map, ht]
    rfl
  obtain ⟨self, imageData, hinv, -, -⟩ := hd.page1 t (List.mem_of_getElem? ht)
  rw [hinv] at hinvocation
  generalize rest.foldr (fun p c => p.2.apply c) b.users = c at husers
  have hresult : d.users w.document = some (w.result (c w.document)) := by
    rw [husers]
    exact w.apply_self c
  cases hissues with
  | registration _ hinv' => rw [hinv] at hinv'; cases hinv'
  | profile2 hinv' _ => rw [hinv] at hinv'; cases hinv'
  | @profile _ author tokens hinv' huser =>
      rw [hinv] at hinv'
      cases hinv'
      refine ⟨i, self, _, hlast, hinvocation, hresult, fun k hk => ?_⟩
      have htext := profileWrite_texts self ((objectOf author).downloadURL tokens) k hk
      obtain ⟨v, hv⟩ : ∃ v, self.submitted.lookup k = some v := by
        simp only [textKeys, List.mem_cons, List.not_mem_nil, or_false] at hk
        rcases hk with rfl | rfl | rfl | rfl | rfl | rfl <;> exact ⟨_, rfl⟩
      rw [hv] at htext ⊢
      exact overlay_of_lookup htext

/-- Once no callback is outstanding the last submission has won exactly when
the callback delivered last belongs to a submission with the same texts, and
the upload that took effect last to one with the same image. -/
theorem last_submission_wins_iff {user : User} {b : Backend} {evs : List Event} {d : Device}
    {self : MyProfileViewController} {imageData : Data} (huser : b.currentUser = some user)
    (hevs : ∀ e ∈ evs, e.SubmitsPage1) (h : run next (launch b) evs = some d)
    (hq : d.Quiescent) (hself : (invocations evs).getLast? = some (.profileContinue self))
    (himage : self.imageData = some imageData) :
    Wins user self imageData d ↔
      ∃ i j selfi selfj, lastDelivered evs = some i ∧ lastUploaded evs = some j ∧
        (invocations evs)[i]? = some (.profileContinue selfi) ∧
        (invocations evs)[j]? = some (.profileContinue selfj) ∧
        selfi.submitted = self.submitted ∧ selfj.imageData = self.imageData := by
  have hd := submitting_of_run huser hevs h
  have hne : d.taps ≠ [] := by
    intro hnil
    rw [← invocations_of_run h, hnil] at hself
    cases hself
  obtain ⟨i, selfi, D, hlast, hi, hD, htexts⟩ := hd.document h hq hne
  obtain ⟨j, selfj, dataj, hup, hj, hdataj, hbucket⟩ :
      ∃ j selfj dataj, lastUploaded evs = some j ∧
        (invocations evs)[j]? = some (.profileContinue selfj) ∧
        selfj.imageData = some dataj ∧
        d.bucket (objectOf user) = some ⟨dataj, "image/jpg"⟩ := by
    cases hup : lastUploaded evs with
    | none =>
        have hfirst : d.taps[0]? = some (d.taps.head hne) := by
          rw [← List.head?_eq_getElem?, List.head?_eq_some_head]
        obtain ⟨-, ref, object, dict, a, hmem⟩ := hd.written h hq hfirst
        exact absurd hmem (hd.nothingUploaded hup 0 ref object dict a)
    | some j =>
        obtain ⟨t, selfj, dataj, ht, hinv, hdataj, hbucket⟩ := hd.uploaded j hup
        refine ⟨j, selfj, dataj, rfl, ?_, hdataj, hbucket⟩
        rw [← invocations_of_run h, List.getElem?_map, ht, Option.map_some, hinv]
  constructor
  · intro hwins
    refine ⟨i, j, selfi, selfj, hlast, hup, hi, hj, submitted_eq_iff.mpr fun k hk => ?_, ?_⟩
    · obtain ⟨D', hD', htexts'⟩ := hwins.texts
      rw [hD] at hD'
      cases hD'
      rw [← htexts k hk, htexts' k hk]
    · have himage' := hwins.image
      rw [hbucket] at himage'
      cases himage'
      rw [hdataj, himage]
  · rintro ⟨i', j', selfi', selfj', hlast', hup', hi', hj', hsame, hsameImage⟩
    rw [hlast] at hlast'
    cases hlast'
    rw [hup] at hup'
    cases hup'
    rw [hi] at hi'
    cases hi'
    rw [hj] at hj'
    cases hj'
    refine ⟨⟨D, hD, fun k hk => ?_⟩, ?_⟩
    · rw [htexts k hk, hsame]
    · rw [hsameImage, himage] at hdataj
      cases hdataj
      exact hbucket

/-! Page 1 submitted twice, the first upload overtaken by the second. -/

def poet : MyProfileViewController :=
  { occupationTextField := ⟨"poet"⟩, image := some ⟨some [1]⟩ }

def analyst : MyProfileViewController :=
  { occupationTextField := ⟨"analyst"⟩, image := some ⟨some [2]⟩ }

/-- The callbacks of taps `i` and `j`, those of `j` one step ahead. -/
def overtaking (i j : Nat) : List Event :=
  [.invoke 0 (.profileContinue poet), .invoke 1 (.profileContinue analyst),
   .serve j (.putData (.success ())), .serve i (.putData (.success ())), .deliver j, .deliver i,
   .serve j (.downloadURL (.success ⟨"t1", by decide⟩)),
   .serve i (.downloadURL (.success ⟨"t2", by decide⟩)), .deliver j, .deliver i,
   .serve j (.setData (.success ())), .serve i (.setData (.success ()))]

theorem last_submission_wins_inOrder :
    ∃ d, run next (launch { currentUser := some ⟨"ada"⟩ }) (overtaking 1 0) = some d ∧
      Wins ⟨"ada"⟩ analyst [2] d := by
  have hrun : run next (launch { currentUser := some ⟨"ada"⟩ }) (overtaking 1 0) = some _ := rfl
  refine ⟨_, hrun, (last_submission_wins_iff rfl ?_ hrun ?_ rfl rfl).mpr
    ⟨1, 1, analyst, analyst, rfl, rfl, rfl, rfl, rfl, rfl⟩⟩
  · simp [overtaking, Event.SubmitsPage1]
    decide
  · intro i
    match i with
    | 0 => rfl
    | 1 => rfl
    | n + 2 => rfl

/-- The stale submission is the one that stays. -/
theorem overtaken_submission_loses :
    ∃ d, run next (launch { currentUser := some ⟨"ada"⟩ }) (overtaking 0 1) = some d ∧
      (∀ e ∈ overtaking 0 1, e.SubmitsPage1) ∧ d.Quiescent ∧
      (invocations (overtaking 0 1)).getLast? = some (.profileContinue analyst) ∧
      ¬ Wins ⟨"ada"⟩ analyst [2] d := by
  have hrun : run next (launch { currentUser := some ⟨"ada"⟩ }) (overtaking 0 1) = some _ := rfl
  refine ⟨_, hrun, ?_, ?_, rfl, fun hwins => ?_⟩
  · simp [overtaking, Event.SubmitsPage1]
    decide
  · intro i
    match i with
    | 0 => rfl
    | 1 => rfl
    | n + 2 => rfl
  · exact absurd hwins.image (by decide)

end Device

end Pompeius
