import Pompeius.Proofs.Coherence

/-!
# Every user has a photo of their own

The documents of all users are one document, their photos are not: page 1
uploads to `profiles/<uid>`, the uid being that of the user who is signed in at
the tap, and different uids make different objects.

`photos_of_run` says what that is worth. At every moment the object of a user
is the last one that user's own taps have uploaded, or what was there at the
start, whatever others have done in between and in whatever order; and nothing
outside these objects is ever touched.
-/

namespace Pompeius

open Lib Device

/-- The object a deed reports as uploaded to `ref`. -/
def uploadTo (ref : StorageReference) : Deed → Option StorageObject
  | .served (.putData ref' object _) (.putData (.success _)) =>
      if ref' = ref then some object else none
  | _ => none

theorem uploadTo_eq_some {ref : StorageReference} {x : Deed} {object : StorageObject} :
    uploadTo ref x = some object ↔
      ∃ dict, x = .served (.putData ref object dict) (.putData (.success ())) := by
  constructor
  · intro h
    unfold uploadTo at h
    split at h
    · split at h
      · rename_i href
        subst href
        cases h
        exact ⟨_, rfl⟩
      · cases h
    · cases h
  · rintro ⟨dict, rfl⟩
    exact if_pos rfl

theorem storageProfileRef_inj {uid uid' : String}
    (h : MyProfileViewController.storageProfileRef uid =
      MyProfileViewController.storageProfileRef uid') : uid = uid' := by
  have hcomponents : ["profiles", uid] = ["profiles", uid'] :=
    congrArg StorageReference.components h
  simpa using hcomponents

/-- What a deed does to an object of the bucket. -/
theorem took_bucket (b : Backend) (x : Deed) (ref : StorageReference) :
    (b.took x).bucket ref = (uploadTo ref x).or (b.bucket ref) := by
  cases x with
  | served r a =>
      show b.bucketAfter r a ref = _
      unfold Backend.bucketAfter
      split
      · rename_i ref' object _ _
        show _ = (if ref' = ref then some object else none).or _
        by_cases href : ref' = ref
        · subst href
          rw [Function.update_self, if_pos rfl, Option.some_or]
        · rw [Function.update_of_ne (Ne.symm href), if_neg href, Option.none_or]
      · rename_i hother
        unfold uploadTo
        split
        · rename_i heq
          cases heq
          exact absurd rfl (hother _ _ _ _ rfl)
        · rw [Option.none_or]
  | _ => rfl

/-- An object is the last one uploaded to its reference. -/
theorem replay_bucket (b : Backend) (hist : List (Nat × Deed)) (ref : StorageReference) :
    (b.replay hist).bucket ref =
      (hist.filterMap fun p => uploadTo ref p.2).head?.or (b.bucket ref) := by
  induction hist with
  | nil => rfl
  | cons p hist ih =>
      show ((b.replay hist).took p.2).bucket ref = _
      rw [took_bucket, ih, List.filterMap_cons]
      cases uploadTo ref p.2 with
      | none => rfl
      | some object => rfl

namespace Device

/-- What the taps of a user have uploaded, newest first. -/
def uploads (d : Device) (uid : String) : List StorageObject :=
  d.history.filterMap fun p =>
    if (d.taps[p.1]?.bind Tap.user).map User.uid = some uid then
      uploadTo (MyProfileViewController.storageProfileRef uid) p.2
    else none

section

variable {b : Backend} {evs : List Event} {d : Device}

/-- Whatever reaches the object of a user is that user's upload. -/
theorem uploads_of_run (h : run next (launch b) evs = some d) (uid : String) :
    d.uploads uid =
      d.history.filterMap fun p => uploadTo (MyProfileViewController.storageProfileRef uid) p.2 := by
  refine List.filterMap_congr fun p hp => ?_
  cases hup : uploadTo (MyProfileViewController.storageProfileRef uid) p.2 with
  | none => exact ite_self none
  | some object =>
      obtain ⟨dict, hx⟩ := uploadTo_eq_some.mp hup
      have hr : p.2.request? =
          some (.putData (MyProfileViewController.storageProfileRef uid) object dict) := by
        rw [hx]
        rfl
      obtain ⟨t, user, ht, huser, href⟩ := putData_of_run h hp hr
      have huid : uid = user.uid := storageProfileRef_inj href
      refine if_pos ?_
      rw [ht, huid]
      show t.user.map User.uid = some user.uid
      rw [huser]
      rfl

/-- Everybody's photo is the last one they uploaded themselves, and an upload is
the image a tap of theirs on page 1 had selected. -/
theorem photos_of_run (h : run next (launch b) evs = some d) :
    (∀ uid, d.bucket (MyProfileViewController.storageProfileRef uid) =
      (d.uploads uid).head?.or (b.bucket (MyProfileViewController.storageProfileRef uid))) ∧
    (∀ ref, (∀ uid, ref ≠ MyProfileViewController.storageProfileRef uid) →
      d.bucket ref = b.bucket ref) ∧
    ∀ uid, ∀ object ∈ d.uploads uid, ∃ t ∈ d.taps, ∃ form imageData,
      t.user = some ⟨uid⟩ ∧ t.invocation = .profileContinue form ∧
      form.imageData = some imageData ∧ object = ⟨imageData, "image/jpg"⟩ := by
  have hstored : d.bucket = (b.replay d.history).bucket := by
    rw [← stored_of_run h]
  refine ⟨fun uid => ?_, fun ref href => ?_, fun uid object hobject => ?_⟩
  · rw [hstored, replay_bucket, uploads_of_run h]
  · have hnone : (d.history.filterMap fun p => uploadTo ref p.2) = [] := by
      refine List.filterMap_eq_nil_iff.mpr fun p hp => ?_
      cases hup : uploadTo ref p.2 with
      | none => rfl
      | some object =>
          obtain ⟨dict, hx⟩ := uploadTo_eq_some.mp hup
          have hr : p.2.request? = some (.putData ref object dict) := by
            rw [hx]
            rfl
          obtain ⟨t, user, -, -, hown⟩ := putData_of_run h hp hr
          exact absurd hown (href user.uid)
    rw [hstored, replay_bucket, hnone]
    exact Option.none_or
  · rw [uploads_of_run h] at hobject
    obtain ⟨⟨i, x⟩, hp, hup⟩ := List.mem_filterMap.mp hobject
    obtain ⟨dict, rfl⟩ := uploadTo_eq_some.mp hup
    obtain ⟨t, ht, hissues⟩ := issues_of_run h hp rfl
    generalize href : MyProfileViewController.storageProfileRef uid = ref at hissues
    cases hissues with
    | @putData form user imageData hinv huser himage =>
        cases storageProfileRef_inj href
        exact ⟨t, List.mem_of_getElem? ht, form, imageData, huser, hinv, himage, rfl⟩

/-- Ada uploads, and Alan after her. -/
def twoUploads : List Event :=
  [.auth (some ⟨"ada"⟩), .invoke 0 (.profileContinue { image := some ⟨some [1]⟩ }),
   .auth (some ⟨"alan"⟩), .invoke 1 (.profileContinue { image := some ⟨some [2]⟩ }),
   .serve 1 (.putData (.success ())), .serve 0 (.putData (.success ()))]

theorem photos_of_run_two :
    ∃ d, run next (launch {}) twoUploads = some d ∧ d.uploads "ada" = [⟨[1], "image/jpg"⟩] ∧
      d.bucket (MyProfileViewController.storageProfileRef "ada") =
        (d.uploads "ada").head?.or none ∧
      d.bucket (MyProfileViewController.storageProfileRef "alan") =
        (d.uploads "alan").head?.or none := by
  have hrun : run next (launch {}) twoUploads = some _ := rfl
  have hphotos := (photos_of_run hrun).1
  exact ⟨_, hrun, by decide, hphotos "ada", hphotos "alan"⟩

end

end Device

end Pompeius
