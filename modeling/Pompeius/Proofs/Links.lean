import Pompeius.Proofs.Photos
import Pompeius.Proofs.Provenance
import Pompeius.Proofs.StorageURL

/-!
# The photo link in the document leads to the photo

What page 1 keeps of a photo is the text of its download URL, in the document
everybody shares. `links_of_run` reads that text back the way the SDK does and
finds the reference the photo was uploaded to, of the user who was signed in at
the tap, and an object there. However taps and answers interleave, and whatever
tokens the backend hands out, no link is left dangling.

The model knows a reference by the names between the slashes of its path, the
SDK by the path. For names they are the same (`toFIR_child`), and the uids Auth
hands out are names.
-/

namespace Pompeius

open Lib Device MyProfileViewController

/-! ## The reference of a user -/

theorem Visible.ne_empty {s : String} (h : Visible s.toList) : s ≠ "" := by
  rintro rfl
  obtain ⟨c, rest, hcons, -⟩ := h
  cases hcons

namespace FIRStorage

variable {bucket : String}

theorem storageForApp_eq (hvis : Visible bucket.toList) (hslash : '/' ∉ bucket.toList) :
    storageForApp (some bucket) = .ok ⟨bucket⟩ := by
  have hurl : "gs://" ++ bucket ≠ "" := fun h =>
    hvis.ne_empty (String.append_eq_empty_iff.mp h).2
  unfold storageForApp
  dsimp only
  unfold storageWithURL
  rw [if_neg hvis.ne_empty, if_neg hurl, FIRStoragePath.pathFromGSURI_bucket hvis hslash]
  rfl

/-- A path in the bucket of the instance becomes a reference. -/
theorem referenceForURL_of_path {url : String} {path : FIRStoragePath} (hbucket : bucket ≠ "")
    (hread : FIRStoragePath.pathFromString url = .ok path) (hpath : path.bucket = bucket) :
    referenceForURL ⟨bucket⟩ url = .ok ⟨⟨bucket⟩, path⟩ := by
  unfold referenceForURL
  simp only [hread]
  rw [if_neg hbucket, if_neg (not_not_intro hpath)]

theorem referenceForURL_bucket (hvis : Visible bucket.toList) (hslash : '/' ∉ bucket.toList) :
    referenceForURL ⟨bucket⟩ ("gs://" ++ bucket) = .ok (reference ⟨bucket⟩) := by
  refine referenceForURL_of_path hvis.ne_empty ?_ rfl
  rw [FIRStoragePath.pathFromString_gs String.toList_append,
    FIRStoragePath.pathFromGSURI_bucket hvis hslash]

end FIRStorage

/-- The bucket of the app. -/
def appBucket : String := "pompeius-e4abd.appspot.com"

theorem visible_appBucket : Visible appBucket.toList := ⟨'p', _, rfl, by decide⟩

theorem plainBucket_appBucket : PlainBucket appBucket :=
  ⟨by decide, forall_mem_of_all (by decide +kernel)⟩

/-- The reference of a user in its bucket. -/
def profileReference (uid : String) : FIRStorageReference :=
  ((FIRStorage.mk appBucket).reference.child "profiles").child uid

theorem storageForApp_appBucket :
    FIRStorage.storageForApp (some "pompeius-e4abd.appspot.com") = .ok ⟨appBucket⟩ :=
  FIRStorage.storageForApp_eq visible_appBucket plainBucket_appBucket.isName.1

theorem storageProfileReference_eq (uid : String) :
    storageProfileReference uid = .ok (profileReference uid) := by
  have hroot : "gs://pompeius-e4abd.appspot.com" = "gs://" ++ appBucket := by decide +kernel
  unfold storageProfileReference
  rw [storageForApp_appBucket, hroot]
  show (FIRStorage.referenceForURL ⟨appBucket⟩ ("gs://" ++ appBucket) >>= fun storageRef =>
    pure ((storageRef.child "profiles").child uid)) = _
  rw [FIRStorage.referenceForURL_bucket visible_appBucket plainBucket_appBucket.isName.1]
  rfl

theorem pathNames_profiles (uid : String) :
    pathNames ("profiles/" ++ uid) = "profiles" :: pathNames uid := by
  have hslash := pathNames_append_slash "profiles" uid
  rwa [← String.append_assoc] at hslash

theorem names_profileReference (uid : String) :
    (profileReference uid).path.names = some ("profiles" :: pathNames uid) := by
  have hprofiles : ((FIRStorage.mk appBucket).reference.child "profiles").path.names =
      some ["profiles"] := rfl
  show (FIRStoragePath.child _ uid).names = _
  rw [FIRStoragePath.names_child]
  split
  · rename_i huid
    rw [huid]
    exact hprofiles
  · exact congrArg (fun names => some (names.getD [] ++ pathNames uid)) hprofiles

namespace StorageReference

theorem names_toFIR {ref : StorageReference} (h : ∀ name ∈ ref.components, IsName name) :
    ref.toFIR.path.names = if ref.components = [] then none else some ref.components := by
  show (FIRStoragePath.initWithBucket _ _).names = _
  rw [FIRStoragePath.names_initWithBucket]
  split
  · rfl
  · rw [Option.map_some, fullPath, pathNames_intercalate, flatMap_pathNames h]

/-- A child of a reference of the model is what the SDK makes of it. -/
theorem toFIR_child {ref : StorageReference} {path : String}
    (h : ∀ name ∈ ref.components, IsName name) (hpath : IsName path) :
    (ref.child path).toFIR = ref.toFIR.child path := by
  have hcomponents : (ref.child path).components = ref.components ++ [path] := rfl
  have hall : ∀ name ∈ (ref.child path).components, IsName name :=
    List.forall_mem_append.mpr ⟨h, List.forall_mem_singleton.mpr hpath⟩
  have hbucket : (ref.child path).toFIR.path.bucket = (ref.toFIR.path.child path).bucket := by
    rw [FIRStoragePath.bucket_child]
    rfl
  have hnames : (ref.child path).toFIR.path.names = (ref.toFIR.path.child path).names := by
    rw [FIRStoragePath.names_child, if_neg hpath.2, hpath.pathNames, names_toFIR h,
      names_toFIR hall, hcomponents,
      if_neg (List.append_ne_nil_of_right_ne_nil _ (List.cons_ne_nil _ _))]
    split
    · rename_i hnil
      rw [hnil]
      rfl
    · rfl
  exact congrArg (FIRStorageReference.mk ⟨ref.bucket⟩) (FIRStoragePath.ext_names hbucket hnames)

end StorageReference

theorem toFIR_storageRef : storageRef.toFIR = (FIRStorage.mk appBucket).reference := rfl

/-- The reference the rest of the model works with is the SDK's. -/
theorem toFIR_storageProfileRef {uid : String} (huid : IsName uid) :
    (storageProfileRef uid).toFIR = profileReference uid := by
  have hprofiles : IsName "profiles" := ⟨by decide, by decide⟩
  have hnone : ∀ name ∈ storageRef.components, IsName name := nofun
  have hone : ∀ name ∈ (storageRef.child "profiles").components, IsName name :=
    List.forall_mem_singleton.mpr hprofiles
  rw [storageProfileRef, StorageReference.toFIR_child hone huid,
    StorageReference.toFIR_child hnone hprofiles, toFIR_storageRef]
  rfl

/-- A photo's link is read as the reference the photo was uploaded to. -/
theorem referenceForURL_downloadURL (uid : String) (tokens : DownloadTokens) :
    FIRStorage.referenceForURL ⟨appBucket⟩ ((storageProfileRef uid).downloadURL tokens) =
      .ok (profileReference uid) := by
  have hnames : pathNames (storageProfileRef uid).fullPath = "profiles" :: pathNames uid :=
    pathNames_profiles uid
  have hread := FIRStoragePath.pathFromString_downloadURL plainBucket_appBucket
    (by rw [hnames]; exact List.cons_ne_nil _ _)
    (downloadURLFromMetadataDictionary_eq (storageProfileRef uid) tokens)
  rw [FIRStorage.referenceForURL_of_path visible_appBucket.ne_empty hread rfl]
  have hpath : FIRStoragePath.initWithBucket appBucket (some (storageProfileRef uid).fullPath) =
      (profileReference uid).path := by
    refine FIRStoragePath.ext_names ?_ ?_
    · show appBucket = (FIRStoragePath.child (FIRStoragePath.child _ "profiles") uid).bucket
      rw [FIRStoragePath.bucket_child, FIRStoragePath.bucket_child]
      rfl
    · rw [FIRStoragePath.names_initWithBucket, names_profileReference, Option.map_some, hnames]
  rw [hpath]
  rfl

namespace Device

section

variable {b : Backend} {evs : List Event} {d : Device}

theorem bucket_isSome_of_upload (h : run next (launch b) evs = some d) {i : Nat}
    {ref : StorageReference} {object : StorageObject} {dict : Dictionary}
    (hmem : (i, .served (.putData ref object dict) (.putData (.success ()))) ∈ d.history) :
    (d.bucket ref).isSome = true := by
  have hstored : d.bucket = (b.replay d.history).bucket := by
    rw [← stored_of_run h]
  have hupload : object ∈ d.history.filterMap fun p => uploadTo ref p.2 :=
    List.mem_filterMap.mpr ⟨_, hmem, uploadTo_eq_some.mpr ⟨dict, rfl⟩⟩
  rw [hstored, replay_bucket]
  cases hups : d.history.filterMap fun p => uploadTo ref p.2 with
  | nil =>
      rw [hups] at hupload
      cases hupload
  | cons newest older => rfl

/-- A write that sets a photo link is one of page 1. -/
theorem isProfile_of_link {t : Tap} {w : DocumentWrite} {c : Bool}
    (h : t.Issues (.setData w c)) {link : String}
    (hlink : w.data.lookup "profileImageUrl" = some link) : w.isProfile = true := by
  cases h with
  | registration uid _ => cases hlink
  | profile tokens _ _ => exact isProfile_profileWrite _ _
  | profile2 _ _ => cases hlink

/-- A link in a document was there at the start or is one that page 1 made: it
leads to the photo of the user whose tap it was. -/
theorem links_of_run (h : run next (launch b) evs = some d)
    {document link : String} {D : Document} (hD : d.users document = some D)
    (hlink : D "profileImageUrl" = some link) :
    (∃ D₀, b.users document = some D₀ ∧ D₀ "profileImageUrl" = some link) ∨
    ∃ t ∈ d.taps, ∃ form user storage reference,
      t.invocation = .profileContinue form ∧ t.user = some user ∧
      FIRStorage.storageForApp (some "pompeius-e4abd.appspot.com") = .ok storage ∧
      storageProfileReference user.uid = .ok reference ∧
      storage.referenceForURL link = .ok reference ∧
      (IsName user.uid → reference = (storageProfileRef user.uid).toFIR) ∧
      (d.bucket (storageProfileRef user.uid)).isSome = true := by
  rw [users_of_run h] at hD
  refine (mem_of_foldr_apply hD hlink).imp_right ?_
  rintro ⟨⟨i, w⟩, hw, hlookup⟩
  obtain ⟨c, hmem⟩ := mem_applied.mp hw
  obtain ⟨_, -, hissues⟩ := issues_of_run h hmem rfl
  obtain ⟨newer, older, hhist⟩ := List.append_of_mem hmem
  obtain ⟨t, form, user, imageData, tokens, ht, hinv, huser, -, hcoherent⟩ :=
    coherent_of_run h hhist rfl (isProfile_of_link hissues hlookup)
  have hpast : ∀ {x}, x ∈ older → x ∈ d.history := fun hx => by
    rw [hhist]
    exact List.mem_append_right newer (List.mem_cons_of_mem _ hx)
  have hlinkEq : link = (storageProfileRef user.uid).downloadURL tokens := by
    rw [hcoherent.data] at hlookup
    exact (Option.some.inj hlookup).symm
  refine ⟨t, List.mem_of_getElem? ht, form, user, ⟨appBucket⟩, profileReference user.uid, hinv,
    huser, storageForApp_appBucket, storageProfileReference_eq user.uid, ?_,
    fun huid => (toFIR_storageProfileRef huid).symm,
    bucket_isSome_of_upload h (hpast hcoherent.uploaded)⟩
  rw [hlinkEq]
  exact referenceForURL_downloadURL user.uid tokens

theorem links_of_run_oneSubmission :
    ∃ d D link, run next (launch { currentUser := some ⟨"ada"⟩ })
        (oneSubmission { image := some ⟨some [0xFF, 0xD8]⟩ }) = some d ∧
      d.users "new" = some D ∧ D "profileImageUrl" = some link ∧
      ∃ t ∈ d.taps, ∃ (user : User) (storage : FIRStorage) (reference : FIRStorageReference),
        t.user = some user ∧ storageProfileReference user.uid = .ok reference ∧
        storage.referenceForURL link = .ok reference := by
  have hview : (run next (launch { currentUser := some ⟨"ada"⟩ })
      (oneSubmission { image := some ⟨some [0xFF, 0xD8]⟩ })).map
        (fun d => (d.users "new").bind fun D => D "profileImageUrl") =
      some (some ((storageProfileRef "ada").downloadURL ⟨"t1,t2", by decide⟩)) := rfl
  obtain ⟨d, hrun, hfield⟩ := Option.map_eq_some_iff.mp hview
  obtain ⟨D, hD, hlink⟩ := Option.bind_eq_some_iff.mp hfield
  obtain ⟨D₀, hnone, -⟩ | ⟨t, ht, -, user, storage, reference, -, huser, -, href, hread, -⟩ :=
    links_of_run hrun hD hlink
  · cases hnone
  · exact ⟨d, D, _, hrun, hD, hlink, t, ht, user, storage, reference, huser, href, hread⟩

end

end Device

end Pompeius
