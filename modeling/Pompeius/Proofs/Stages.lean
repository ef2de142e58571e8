import Pompeius.Proofs.Life

/-!
# The stages of a tap

A life written out. A submitted page 1 goes through an upload, a request for
the download URL and a merging write, and it can stop after the first or the
second; a submitted page 2 is one merging write; a registration creates an
account and then stores a document, and it stops after the first when that is
reported as failed, with or without an account. Each
stage comes with the whole record of the tap at that point, so a question
about a tap is a question about one of a handful of explicit lists.

The theorems that say so are inductions over `Life`: an answer that fits moves
a stage that waits for one, and the completion handler is evaluated on the
answer that was recorded.
-/

namespace Pompeius

open Device

/-- A fitting answer, taken apart by the kind of request it answers. -/
theorem fits_putData {ref : StorageReference} {object : StorageObject} {dict : Dictionary}
    {a : Answer} (h : (Request.putData ref object dict).fits a = true) :
    ∃ reply, a = .putData reply := by
  cases a with
  | putData reply => exact ⟨reply, rfl⟩
  | _ => cases h

theorem fits_downloadURL {ref : StorageReference} {dict : Dictionary} {a : Answer}
    (h : (Request.downloadURL ref dict).fits a = true) : ∃ reply, a = .downloadURL reply := by
  cases a with
  | downloadURL reply => exact ⟨reply, rfl⟩
  | _ => cases h

theorem fits_setData {write : DocumentWrite} {awaits : Bool} {a : Answer}
    (h : (Request.setData write awaits).fits a = true) : ∃ reply, a = .setData reply := by
  cases a with
  | setData reply => exact ⟨reply, rfl⟩
  | _ => cases h

theorem fits_createUser {email password firstName lastName : String} {a : Answer}
    (h : (Request.createUser email password firstName lastName).fits a = true) :
    ∃ reply, a = .createUser reply := by
  cases a with
  | createUser reply => exact ⟨reply, rfl⟩
  | _ => cases h

/-! ## Page 1 -/

section Upload

variable (ref : StorageReference) (object : StorageObject) (dict : Dictionary)

/-- The record of page 1 when its upload is in flight. -/
def uploadDeeds : List Deed :=
  [.ui (.performSegue "continueProfile"), .request (.putData ref object dict)]

/-- The record of page 1 when it has asked for the download URL. -/
def downloadDeeds : List Deed :=
  .request (.downloadURL ref dict) ::
    .delivered (.putData ref object dict) (.putData (.success ())) ::
    .served (.putData ref object dict) (.putData (.success ())) ::
    uploadDeeds ref object dict

/-- The write of a page 1 whose object got its access tokens. -/
def tokenWrite (tokens : DownloadTokens) : Request :=
  .setData (MyProfileViewController.profileWrite dict (ref.downloadURL tokens)) false

/-- The record of page 1 when its write is in the pipeline. -/
def writeDeeds (tokens : DownloadTokens) : List Deed :=
  .request (tokenWrite ref dict tokens) ::
    .delivered (.downloadURL ref dict) (.downloadURL (.success tokens)) ::
    .served (.downloadURL ref dict) (.downloadURL (.success tokens)) ::
    downloadDeeds ref object dict

inductive Upload : Option Call → List Deed → Prop
  | uploading : Upload (some ⟨.putData ref object dict, none⟩) (uploadDeeds ref object dict)
  | uploaded (reply : Reply Unit) :
      Upload (some ⟨.putData ref object dict, some (.putData reply)⟩)
        (.served (.putData ref object dict) (.putData reply) :: uploadDeeds ref object dict)
  | uploadFailed (e : NSError) :
      Upload none
        (.delivered (.putData ref object dict) (.putData (.failure e)) ::
          .served (.putData ref object dict) (.putData (.failure e)) ::
          uploadDeeds ref object dict)
  | locating : Upload (some ⟨.downloadURL ref dict, none⟩) (downloadDeeds ref object dict)
  | located (reply : Reply DownloadTokens) :
      Upload (some ⟨.downloadURL ref dict, some (.downloadURL reply)⟩)
        (.served (.downloadURL ref dict) (.downloadURL reply) :: downloadDeeds ref object dict)
  | locateFailed (e : NSError) :
      Upload none
        (.delivered (.downloadURL ref dict) (.downloadURL (.failure e)) ::
          .served (.downloadURL ref dict) (.downloadURL (.failure e)) ::
          downloadDeeds ref object dict)
  | writing (tokens : DownloadTokens) :
      Upload (some ⟨tokenWrite ref dict tokens, none⟩) (writeDeeds ref object dict tokens)
  | written (tokens : DownloadTokens) (reply : Reply Unit) :
      Upload none
        (.served (tokenWrite ref dict tokens) (.setData reply) ::
          writeDeeds ref object dict tokens)

end Upload

theorem Upload.serve {ref : StorageReference} {object : StorageObject} {dict : Dictionary}
    {r : Request} {a : Answer} {deeds : List Deed}
    (h : Upload ref object dict (some ⟨r, none⟩) deeds) (hfit : r.fits a = true) :
    Upload ref object dict (r.after a) (.served r a :: deeds) := by
  cases h with
  | uploading =>
      obtain ⟨reply, rfl⟩ := fits_putData hfit
      exact .uploaded reply
  | locating =>
      obtain ⟨reply, rfl⟩ := fits_downloadURL hfit
      exact .located reply
  | writing tokens =>
      obtain ⟨reply, rfl⟩ := fits_setData hfit
      exact .written tokens reply

theorem Upload.deliver {ref : StorageReference} {object : StorageObject} {dict : Dictionary}
    {r : Request} {a : Answer} {eff : Effects} {ds : List Deed}
    (h : Upload ref object dict (some ⟨r, some a⟩) ds) (heff : completion r a = .ok eff) :
    Upload ref object dict eff.call (deeds eff ++ .delivered r a :: ds) := by
  cases h with
  | uploaded reply =>
      cases reply with
      | failure e => cases heff; exact .uploadFailed e
      | success _ => cases heff; exact .locating
  | located reply =>
      cases reply with
      | failure e => cases heff; exact .locateFailed e
      | success tokens => cases heff; exact .writing tokens

/-- A tap that asks for nothing has lived when its handler has run. -/
theorem deeds_of_life {t : Tap} {eff : Effects} (heff : t.invocation.run t.user = .ok eff)
    (hnone : eff.request = none) {call : Option Call} {ds : List Deed} (h : Life t call ds) :
    call = none ∧ ds = deeds eff := by
  induction h with
  | tap heff' =>
      rw [heff] at heff'
      cases heff'
      exact ⟨by rw [Effects.call, hnone]; rfl, rfl⟩
  | serve _ _ ih => cases ih.1
  | deliver _ _ ih => cases ih.1

/-- A tap on page 1 with an encodable image and a signed-in user is in one of
the stages of its upload. -/
theorem upload_of_life {t : Tap} {self : MyProfileViewController} {user : User}
    {imageData : Data} (hinv : t.invocation = .profileContinue self)
    (huser : t.user = some user) (himage : self.imageData = some imageData)
    {call : Option Call} {ds : List Deed} (h : Life t call ds) :
    Upload (MyProfileViewController.storageProfileRef user.uid) ⟨imageData, "image/jpg"⟩
      self.submitted call ds := by
  induction h with
  | tap heff =>
      rw [hinv, huser] at heff
      change self.continueButton (some user) = _ at heff
      rw [self.continueButton_eq, himage] at heff
      cases heff
      exact .uploading
  | serve _ hfit ih => exact ih.serve hfit
  | deliver _ heff ih => exact ih.deliver heff

/-- Without a user, or without an image to encode, page 1 calls nobody. -/
theorem idle_of_life {t : Tap} {self : MyProfileViewController}
    (hinv : t.invocation = .profileContinue self)
    (hidle : t.user = none ∨ self.imageData = none)
    {call : Option Call} {ds : List Deed} (h : Life t call ds) :
    call = none ∧ ∀ x ∈ ds, ∃ id, x = .ui (.performSegue id) := by
  have hrun : t.invocation.run t.user = self.continueButton t.user := by rw [hinv]; rfl
  cases himage : self.imageData with
  | none =>
      have heff : t.invocation.run t.user = .ok {} := by
        rw [hrun, self.continueButton_eq, himage]
      obtain ⟨hcall, rfl⟩ := deeds_of_life heff rfl h
      exact ⟨hcall, by simp [deeds]⟩
  | some imageData =>
      have huser : t.user = none := hidle.resolve_right (by rw [himage]; simp)
      have heff : t.invocation.run t.user = .ok { ui := [.performSegue "continueProfile"] } := by
        rw [hrun, self.continueButton_eq, himage, huser]
        rfl
      obtain ⟨hcall, rfl⟩ := deeds_of_life heff rfl h
      exact ⟨hcall, by simp [deeds]⟩

/-! ## Page 2 -/

inductive Page2 (w : DocumentWrite) : Option Call → List Deed → Prop
  | writing : Page2 w (some ⟨.setData w false, none⟩)
      [.ui (.performSegue "toSurveyIntro"), .request (.setData w false)]
  | written (reply : Reply Unit) : Page2 w none
      [.served (.setData w false) (.setData reply), .ui (.performSegue "toSurveyIntro"),
        .request (.setData w false)]

theorem page2_of_life {t : Tap} {self : MyProfile2ViewController} {user : User}
    (hinv : t.invocation = .profile2Continue self) (huser : t.user = some user)
    {call : Option Call} {ds : List Deed} (h : Life t call ds) :
    Page2 self.submitted call ds := by
  induction h with
  | tap heff =>
      rw [hinv, huser] at heff
      change self.continueButton (some user) = _ at heff
      rw [self.continueButton_eq] at heff
      cases heff
      exact .writing
  | serve _ hfit ih =>
      cases ih with
      | writing =>
          obtain ⟨reply, rfl⟩ := fits_setData hfit
          exact .written reply
  | deliver _ _ ih => cases ih

/-- Without a user page 2 calls nobody. -/
theorem page2_idle_of_life {t : Tap} {self : MyProfile2ViewController}
    (hinv : t.invocation = .profile2Continue self) (huser : t.user = none)
    {call : Option Call} {ds : List Deed} (h : Life t call ds) :
    call = none ∧ ds = [.ui (.performSegue "toSurveyIntro")] := by
  have heff : t.invocation.run t.user = .ok { ui := [.performSegue "toSurveyIntro"] } := by
    rw [hinv, huser]
    exact self.continueButton_eq none
  exact deeds_of_life heff rfl h

/-! ## Registration -/

section Enrol

variable (email password firstName lastName : String)

/-- The record of a registration when its account is created. -/
def createdDeeds (uid : String) : List Deed :=
  [.ui (.performSegue "toMyProfile"),
    .request (.setData (RegisterViewController.registrationWrite firstName lastName uid) true),
    .delivered (.createUser email password firstName lastName) (.createUser (.success uid)),
    .served (.createUser email password firstName lastName) (.createUser (.success uid)),
    .request (.createUser email password firstName lastName)]

inductive Enrol : Option Call → List Deed → Prop
  | creating :
      Enrol (some ⟨.createUser email password firstName lastName, none⟩)
        [.request (.createUser email password firstName lastName)]
  | created (reply : AccountReply) :
      Enrol (some ⟨.createUser email password firstName lastName, some (.createUser reply)⟩)
        [.served (.createUser email password firstName lastName) (.createUser reply),
          .request (.createUser email password firstName lastName)]
  | createFailed (reply : AccountReply) (hnobody : reply.value = none) :
      Enrol none
        [.ui (.showError "Email has been used already"),
          .delivered (.createUser email password firstName lastName) (.createUser reply),
          .served (.createUser email password firstName lastName) (.createUser reply),
          .request (.createUser email password firstName lastName)]
  | storing (uid : String) :
      Enrol (some ⟨.setData (RegisterViewController.registrationWrite firstName lastName uid)
          true, none⟩)
        (createdDeeds email password firstName lastName uid)
  | stored (uid : String) (reply : Reply Unit) :
      Enrol (some ⟨.setData (RegisterViewController.registrationWrite firstName lastName uid)
          true, some (.setData reply)⟩)
        (.served (.setData (RegisterViewController.registrationWrite firstName lastName uid)
            true) (.setData reply) ::
          createdDeeds email password firstName lastName uid)
  | finished (uid : String) (reply : Reply Unit) (told : List Deed)
      (htold : ∀ x ∈ told, ∃ message, x = .ui (.showError message)) :
      Enrol none
        (told ++
          .delivered (.setData (RegisterViewController.registrationWrite firstName lastName uid)
            true) (.setData reply) ::
          .served (.setData (RegisterViewController.registrationWrite firstName lastName uid)
            true) (.setData reply) ::
          createdDeeds email password firstName lastName uid)

end Enrol

theorem enrol_of_life {t : Tap} {self : RegisterViewController}
    (hinv : t.invocation = .registerButton self)
    (hvalid : Utilities.isPasswordValid self.passwordField.cleaned = true)
    {call : Option Call} {ds : List Deed} (h : Life t call ds) :
    Enrol self.emailField.cleaned self.passwordField.cleaned self.firstNameField.cleaned
      self.lastNameField.cleaned call ds := by
  induction h with
  | tap heff =>
      rw [hinv] at heff
      change self.registerButton = _ at heff
      rw [self.registerButton_eq, hvalid] at heff
      cases heff
      exact .creating
  | serve _ hfit ih =>
      cases ih with
      | creating =>
          obtain ⟨reply, rfl⟩ := fits_createUser hfit
          exact .created reply
      | storing uid =>
          obtain ⟨reply, rfl⟩ := fits_setData hfit
          exact .stored uid reply
  | deliver _ heff ih =>
      cases ih with
      | created reply =>
          cases reply with
          | failure e => cases heff; exact .createFailed (.failure e) rfl
          | incomplete uid e => cases heff; exact .createFailed (.incomplete uid e) rfl
          | success uid => cases heff; exact .storing uid
      | stored uid reply =>
          cases reply with
          | failure e => cases heff; exact .finished uid (.failure e) [_] (by simp)
          | success _ => cases heff; exact .finished uid (.success ()) [] (by simp)

end Pompeius
