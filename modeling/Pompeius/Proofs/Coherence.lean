import Pompeius.Proofs.Documents
import Pompeius.Proofs.History
import Pompeius.Proofs.Stages

/-!
# A page-1 write is coherent

The dictionary of page 1 is captured by two nested closures, the uid is read
at the tap and used two callbacks later, and any number of taps by any number
of users may be in flight. Nothing is mixed up: `profileWrite_coherent`.

A tap's life decides everything. In each stage of an upload, whatever write is
on record has the successful upload and the download URL of the same tap
before it (`Upload.preceded`), and there is at most one. The record of a tap
is the part of the history with its number, in the same order, so what comes
before a write in the record comes before it in the history.

That the URL is nobody else's is a fact about URLs: two objects of the bucket
with different paths have no download URL in common, whatever their tokens.
-/

namespace Pompeius

open Lib Device

/-! ## The page-1 dictionary -/

/-- A Firestore write of the page-1 dictionary. -/
def DocumentWrite.isProfile (w : DocumentWrite) : Bool := keys w.data == profileKeys

theorem isProfile_profileWrite (self : MyProfileViewController) (url : String) :
    (MyProfileViewController.profileWrite self.submitted url).isProfile = true := by
  have h : Page1Write (MyProfileViewController.profileWrite self.submitted url) := .intro ..
  exact beq_iff_eq.mpr h.keys_eq

theorem isProfile_registrationWrite (firstName lastName uid : String) :
    (RegisterViewController.registrationWrite firstName lastName uid).isProfile = false := rfl

theorem isProfile_profile2 (self : MyProfile2ViewController) :
    self.submitted.isProfile = false := rfl

/-- Page 1 is the only handler that writes the page-1 dictionary. -/
theorem Tap.Issues.profile_of_isProfile {t : Tap} {w : DocumentWrite} {completion : Bool}
    (h : t.Issues (.setData w completion)) (hw : w.isProfile = true) :
    ∃ self user, t.invocation = .profileContinue self ∧ t.user = some user := by
  cases h with
  | registration uid _ => rw [isProfile_registrationWrite] at hw; cases hw
  | profile tokens hinv huser => exact ⟨_, _, hinv, huser⟩
  | profile2 _ _ => rw [isProfile_profile2] at hw; cases hw

/-! ## The object of a user -/

/-- Objects of different users have no download URL in common. -/
theorem downloadURL_ne_of_uid_ne {uid uid' : String} {tokens tokens' : DownloadTokens}
    (h : uid' ≠ uid) :
    (MyProfileViewController.storageProfileRef uid).downloadURL tokens ≠
      (MyProfileViewController.storageProfileRef uid').downloadURL tokens' := by
  intro heq
  have hpath : "profiles/" ++ uid = "profiles/" ++ uid' := downloadURL_inj heq
  exact h (String.append_right_inj _ |>.mp hpath).symm

/-! ## Inside one tap -/

/-- Asks for a write of the page-1 dictionary. -/
def Deed.asksProfile : Deed → Bool
  | .request (.setData w _) => w.isProfile
  | _ => false

/-- Reports the answer to a write of the page-1 dictionary. -/
def Deed.acksProfile : Deed → Bool
  | .served (.setData w _) _ => w.isProfile
  | _ => false

section Upload

variable {ref : StorageReference} {object : StorageObject} {dict : Dictionary}
  {call : Option Call} {ds : List Deed}

/-- Before a write on record stand the upload and the download URL it was
built from. -/
def Backed (ref : StorageReference) (object : StorageObject) (dict : Dictionary)
    (x : Deed) (older : List Deed) : Prop :=
  ∀ w c, x.request? = some (.setData w c) → ∃ tokens,
    w = MyProfileViewController.profileWrite dict (ref.downloadURL tokens) ∧
    .served (.putData ref object dict) (.putData (.success ())) ∈ older ∧
    .served (.downloadURL ref dict) (.downloadURL (.success tokens)) ∈ older

theorem backed_of_not_write {x : Deed} {older : List Deed}
    (h : ∀ w c, x.request? ≠ some (.setData w c)) : Backed ref object dict x older :=
  fun w c hx => absurd hx (h w c)

theorem preceded_uploadDeeds :
    Preceded (Backed ref object dict) (uploadDeeds ref object dict) :=
  ⟨backed_of_not_write nofun, backed_of_not_write nofun, trivial⟩

theorem preceded_downloadDeeds :
    Preceded (Backed ref object dict) (downloadDeeds ref object dict) :=
  ⟨backed_of_not_write nofun, backed_of_not_write nofun, backed_of_not_write nofun,
    preceded_uploadDeeds⟩

theorem preceded_writeDeeds (tokens : DownloadTokens) :
    Preceded (Backed ref object dict) (writeDeeds ref object dict tokens) := by
  refine ⟨fun w c hx => ?_, backed_of_not_write nofun, backed_of_not_write nofun,
    preceded_downloadDeeds⟩
  cases hx
  exact ⟨tokens, rfl, by simp [downloadDeeds], by simp⟩

theorem Upload.preceded (h : Upload ref object dict call ds) :
    Preceded (Backed ref object dict) ds := by
  cases h with
  | uploading => exact preceded_uploadDeeds
  | uploaded reply => exact ⟨backed_of_not_write nofun, preceded_uploadDeeds⟩
  | uploadFailed e =>
      exact ⟨backed_of_not_write nofun, backed_of_not_write nofun, preceded_uploadDeeds⟩
  | locating => exact preceded_downloadDeeds
  | located reply => exact ⟨backed_of_not_write nofun, preceded_downloadDeeds⟩
  | locateFailed e =>
      exact ⟨backed_of_not_write nofun, backed_of_not_write nofun, preceded_downloadDeeds⟩
  | writing tokens => exact preceded_writeDeeds tokens
  | written tokens reply =>
      refine ⟨fun w c hx => ?_, preceded_writeDeeds tokens⟩
      cases hx
      exact ⟨tokens, rfl, by simp [writeDeeds, downloadDeeds], by simp [writeDeeds]⟩

/-- An upload asks for at most one write, and at most one is acknowledged. -/
theorem Upload.countP_le_one (h : Upload ref object dict call ds) :
    ds.countP Deed.asksProfile ≤ 1 ∧ ds.countP Deed.acksProfile ≤ 1 := by
  have hwrite : ∀ tokens, (writeDeeds ref object dict tokens).countP Deed.asksProfile ≤ 1 ∧
      (writeDeeds ref object dict tokens).countP Deed.acksProfile = 0 := by
    intro tokens
    rw [writeDeeds, List.countP_cons]
    have hrest : ∀ p : Deed → Bool, p = Deed.asksProfile ∨ p = Deed.acksProfile →
        List.countP p (.delivered (.downloadURL ref dict) (.downloadURL (.success tokens)) ::
          .served (.downloadURL ref dict) (.downloadURL (.success tokens)) ::
          downloadDeeds ref object dict) = 0 := by
      rintro p (rfl | rfl) <;> rfl
    rw [hrest _ (.inl rfl), List.countP_cons, hrest _ (.inr rfl)]
    exact ⟨by split <;> simp, rfl⟩
  cases h with
  | writing tokens => exact ⟨(hwrite tokens).1, by rw [(hwrite tokens).2]; exact Nat.zero_le 1⟩
  | written tokens reply =>
      rw [List.countP_cons, List.countP_cons, (hwrite tokens).2]
      exact ⟨(hwrite tokens).1, by split <;> simp⟩
  | _ => simp [downloadDeeds, uploadDeeds, Deed.asksProfile, Deed.acksProfile]

end Upload

/-- A tap that has a page-1 write on record is uploading. -/
theorem upload_of_isProfile {t : Tap} {call : Option Call} {ds : List Deed}
    (h : Life t call ds) {x : Deed} (hx : x ∈ ds) {w : DocumentWrite} {c : Bool}
    (hr : x.request? = some (.setData w c)) (hw : w.isProfile = true) :
    ∃ self user imageData, t.invocation = .profileContinue self ∧ t.user = some user ∧
      self.imageData = some imageData ∧
      Upload (MyProfileViewController.storageProfileRef user.uid) ⟨imageData, "image/jpg"⟩
        self.submitted call ds := by
  obtain ⟨self, user, hinv, huser⟩ := ((issues_of_life h).2 x hx _ hr).profile_of_isProfile hw
  cases himage : self.imageData with
  | none =>
      obtain ⟨id, rfl⟩ := (idle_of_life hinv (.inr himage) h).2 x hx
      cases hr
  | some imageData =>
      exact ⟨self, user, imageData, hinv, huser, himage, upload_of_life hinv huser himage h⟩

/-- A life has at most one page-1 write. -/
theorem life_countP_le_one {t : Tap} {call : Option Call} {ds : List Deed}
    (h : Life t call ds) :
    ds.countP Deed.asksProfile ≤ 1 ∧ ds.countP Deed.acksProfile ≤ 1 := by
  by_cases hwrites : ∃ x ∈ ds, ∃ w c, x.request? = some (.setData w c) ∧ w.isProfile = true
  · obtain ⟨x, hx, w, c, hr, hw⟩ := hwrites
    obtain ⟨self, user, imageData, -, -, -, hup⟩ := upload_of_isProfile h hx hr hw
    exact hup.countP_le_one
  · have hnone : ∀ p : Deed → Bool, (∀ x, p x = true → ∃ w c,
        x.request? = some (.setData w c) ∧ w.isProfile = true) → ds.countP p ≤ 1 := by
      intro p hp
      rw [List.countP_eq_zero.mpr fun x hx htrue => hwrites ⟨x, hx, hp x htrue⟩]
      exact Nat.zero_le 1
    constructor
    · refine hnone _ fun x hx => ?_
      unfold Deed.asksProfile at hx
      split at hx
      · exact ⟨_, _, rfl, hx⟩
      · cases hx
    · refine hnone _ fun x hx => ?_
      unfold Deed.acksProfile at hx
      split at hx
      · exact ⟨_, _, rfl, hx⟩
      · cases hx

/-! ## Across taps -/

/-- What a write of tap `i` has to be, when the tap is on Continue
of `form` with `user` signed in and `older` is all that happened before. -/
structure Coherent (form : MyProfileViewController) (user : User) (imageData : Data)
    (tokens : DownloadTokens) (i : Nat) (older : List (Nat × Deed)) (w : DocumentWrite) : Prop where
  uploaded : (i, .served (.putData (MyProfileViewController.storageProfileRef user.uid)
    ⟨imageData, "image/jpg"⟩ form.submitted) (.putData (.success ()))) ∈ older
  located : (i, .served (.downloadURL (MyProfileViewController.storageProfileRef user.uid)
    form.submitted) (.downloadURL (.success tokens))) ∈ older
  data : w.data =
    [("occupation", form.occupationTextField.cleaned), ("age", form.ageTextField.cleaned),
     ("height", form.heightTextField.cleaned), ("gender", form.genderTextField.cleaned),
     ("country of origin", form.countryOriginTextField.cleaned),
     ("country raised in", form.countryRaisedTextField.cleaned),
     ("profileImageUrl",
      (MyProfileViewController.storageProfileRef user.uid).downloadURL tokens)]
  url_ne_empty : (MyProfileViewController.storageProfileRef user.uid).downloadURL tokens ≠ ""
  url_own : ∀ uid tokens', uid ≠ user.uid →
    (MyProfileViewController.storageProfileRef user.uid).downloadURL tokens ≠
      (MyProfileViewController.storageProfileRef uid).downloadURL tokens'

theorem coherent_of_run {b : Backend} {evs : List Event} {d : Device}
    (h : run next (launch b) evs = some d) {newer older : List (Nat × Deed)} {i : Nat}
    {x : Deed} (hhist : d.history = newer ++ (i, x) :: older) {w : DocumentWrite} {c : Bool}
    (hr : x.request? = some (.setData w c)) (hw : w.isProfile = true) :
    ∃ t self user imageData tokens, d.taps[i]? = some t ∧
      t.invocation = .profileContinue self ∧ t.user = some user ∧
      self.imageData = some imageData ∧ Coherent self user imageData tokens i older w := by
  have hmem : (i, x) ∈ d.history := by
    rw [hhist]
    exact List.mem_append_right newer List.mem_cons_self
  obtain ⟨t, ht⟩ := exists_tap_of_run h hmem
  obtain ⟨self, user, imageData, hinv, huser, himage, hup⟩ :=
    upload_of_isProfile (life_of_run h ht) (mem_deedsOf.mpr hmem) hr hw
  have hpre := hup.preceded
  rw [deedsOf_split hhist] at hpre
  obtain ⟨tokens, rfl, huploaded, hlocated⟩ := hpre.split w c hr
  refine ⟨t, self, user, imageData, tokens, ht, hinv, huser, himage, ?_⟩
  exact {
    uploaded := mem_ofTap.mp huploaded
    located := mem_ofTap.mp hlocated
    data := profileWrite_data ..
    url_ne_empty := downloadURL_ne_empty _ tokens
    url_own := fun uid tokens' hne => downloadURL_ne_of_uid_ne hne }

/-- Every upload goes to the object of the user who was signed in at its tap. -/
theorem putData_of_run {b : Backend} {evs : List Event} {d : Device}
    (h : run next (launch b) evs = some d) {i : Nat} {x : Deed} {ref : StorageReference}
    {object : StorageObject} {dict : Dictionary} (hx : (i, x) ∈ d.history)
    (hr : x.request? = some (.putData ref object dict)) :
    ∃ t user, d.taps[i]? = some t ∧ t.user = some user ∧
      ref = MyProfileViewController.storageProfileRef user.uid := by
  obtain ⟨t, ht, hissues⟩ := issues_of_run h hx hr
  cases hissues with
  | putData _ huser _ => exact ⟨t, _, ht, huser, rfl⟩

/-- Whatever the schedule and whoever is signed in meanwhile, a page-1 write
is backed by one tap, a tap makes at most one, and the object of a user is
uploaded only by taps made while that user was signed in. -/
theorem profileWrite_coherent {b : Backend} {evs : List Event} {d : Device}
    (h : run next (launch b) evs = some d) :
    (∀ newer older i x w c, d.history = newer ++ (i, x) :: older →
      x.request? = some (.setData w c) → w.isProfile = true →
      ∃ t self user imageData tokens, d.taps[i]? = some t ∧
        t.invocation = .profileContinue self ∧ t.user = some user ∧
        self.imageData = some imageData ∧ Coherent self user imageData tokens i older w) ∧
    (∀ i, (d.deedsOf i).countP Deed.asksProfile ≤ 1 ∧
      (d.deedsOf i).countP Deed.acksProfile ≤ 1) ∧
    (∀ i x ref object dict, (i, x) ∈ d.history →
      x.request? = some (.putData ref object dict) →
      ∃ t user, d.taps[i]? = some t ∧ t.user = some user ∧
        ref = MyProfileViewController.storageProfileRef user.uid) ∧
    (∀ ref object, d.bucket ref = some object → b.bucket ref = some object ∨
      ∃ i t user, d.taps[i]? = some t ∧ t.user = some user ∧
        ref = MyProfileViewController.storageProfileRef user.uid ∧
        ∃ dict, (i, .served (.putData ref object dict) (.putData (.success ()))) ∈
          d.history) := by
  refine ⟨fun newer older i x w c hhist hr hw => coherent_of_run h hhist hr hw, fun i => ?_,
    fun i x ref object dict hx hr => putData_of_run h hx hr, fun ref object hobject => ?_⟩
  · rcases Nat.lt_or_ge i d.taps.length with hi | hi
    · exact life_countP_le_one (life_of_run h (List.getElem?_eq_getElem hi))
    · rw [((lives_of_run h).unborn i hi).2]
      exact ⟨Nat.zero_le 1, Nat.zero_le 1⟩
  · refine (bucket_of_run h hobject).imp_right ?_
    rintro ⟨i, dict, hmem⟩
    obtain ⟨t, user, ht, huser, href⟩ := putData_of_run h hmem rfl
    exact ⟨i, t, user, ht, huser, href, dict, hmem⟩

/-- Page 1 submitted once by a signed-in user, every call served and every
callback delivered. -/
def oneSubmission (self : MyProfileViewController) : List Event :=
  [.invoke 0 (.profileContinue self), .serve 0 (.putData (.success ())), .deliver 0,
   .serve 0 (.downloadURL (.success ⟨"t1,t2", by decide⟩)), .deliver 0,
   .serve 0 (.setData (.success ()))]

theorem profileWrite_coherent_oneSubmission :
    ∃ d older w, run next (launch { currentUser := some ⟨"ada"⟩ })
        (oneSubmission { image := some ⟨some [0xFF, 0xD8]⟩ }) = some d ∧
      d.history = (0, .served (.setData w false) (.setData (.success ()))) :: older ∧
      ∃ t self user imageData tokens, d.taps[0]? = some t ∧
        t.invocation = .profileContinue self ∧ t.user = some user ∧
        self.imageData = some imageData ∧ Coherent self user imageData tokens 0 older w := by
  have hrun : run next (launch { currentUser := some ⟨"ada"⟩ })
      (oneSubmission { image := some ⟨some [0xFF, 0xD8]⟩ }) = some _ := rfl
  exact ⟨_, _, _, hrun, rfl, (profileWrite_coherent hrun).1 [] _ 0 _ _ _ rfl rfl rfl⟩

end Pompeius
