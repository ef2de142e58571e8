import Mathlib.Logic.Function.Basic
import Pompeius.Lib.Overlay
import Pompeius.Model.Storage

/-!
# What the program asks of Firebase

Auth, Firestore and Storage as far as the program reaches into them. A call is
a `Request`, and it carries what its completion handler captured; what the
backend says to it is an `Answer`, a `Reply` of the kind the request expects.
Handing an answer to the handler as its optional result and optional error is
the SDK's job, done by `Reply.value` and `Reply.error`: exactly one of the two
is `nil`.

An answer is also the truth about what happened. A failed upload has stored
nothing, and a write whose `setData` failed is one the backend has refused for
good. Only `createUser` may fail with its work half done: the SDK opens the
account with one request and looks it up with another, saves the user in the
keychain, and reports an error of any of the three (`AccountReply`).

Firestore applies each write atomically. A plain `setData` replaces the whole
document, one with `merge: true` replaces exactly the fields it lists.
-/

namespace Pompeius

open Lib

structure User where
  uid : String
  deriving DecidableEq, Repr

structure AuthDataResult where
  user : User
  deriving DecidableEq, Repr

structure NSError where
  localizedDescription : String
  deriving DecidableEq, Repr

inductive Reply (α : Type) where
  | failure (error : NSError)
  | success (value : α)
  deriving DecidableEq, Repr

namespace Reply

variable {α : Type}

def error : Reply α → Option NSError
  | failure e => some e
  | success _ => none

def value : Reply α → Option α
  | failure _ => none
  | success a => some a

end Reply

/-- The outcome of `createUser`. An incomplete one has opened the account of that
uid all the same. -/
inductive AccountReply where
  | failure (error : NSError)
  | incomplete (uid : String) (error : NSError)
  | success (uid : String)
  deriving DecidableEq, Repr

namespace AccountReply

def error : AccountReply → Option NSError
  | failure e => some e
  | incomplete _ e => some e
  | success _ => none

/-- The uid of the user who is handed over. -/
def value : AccountReply → Option String
  | success uid => some uid
  | _ => none

/-- The uid of the account there is now, heard of or not. -/
def opened : AccountReply → Option String
  | failure _ => none
  | incomplete uid _ => some uid
  | success uid => some uid

end AccountReply

/-! ## Dictionaries and documents -/

/-- `[String: Any]`; every value the program puts into one is a string. -/
abbrev Dictionary := List (String × String)

/-- `dictionary[key] = value`. -/
def Dictionary.set (d : Dictionary) (key value : String) : Dictionary :=
  if key ∈ keys d then d.map fun p => if p.1 = key then (key, value) else p
  else d ++ [(key, value)]

abbrev Document := Doc String String

/-- A collection, by document id. -/
abbrev Collection := String → Option Document

/-- `collection.document(document).setData(data, merge: merge)`. -/
structure DocumentWrite where
  document : String
  data : Dictionary
  merge : Bool := false
  deriving DecidableEq, Repr

/-- The document a write leaves behind. -/
def DocumentWrite.result (w : DocumentWrite) (old : Option Document) : Document :=
  if w.merge then (old.getD Doc.empty).overlay w.data else Doc.empty.overlay w.data

def DocumentWrite.apply (w : DocumentWrite) (c : Collection) : Collection :=
  Function.update c w.document (some (w.result (c w.document)))

/-! ## Storage -/

/-- A bucket and the names between slashes of an object in it. The ones the program
uses, `profiles` and a uid, are nonempty and free of slashes. -/
structure StorageReference where
  bucket : String
  components : List String
  deriving DecidableEq, Repr

namespace StorageReference

def child (ref : StorageReference) (path : String) : StorageReference :=
  { ref with components := ref.components ++ [path] }

def fullPath (ref : StorageReference) : String := "/".intercalate ref.components

/-- The reference the SDK has in its place. -/
def toFIR (ref : StorageReference) : FIRStorageReference :=
  ⟨⟨ref.bucket⟩, FIRStoragePath.initWithBucket ref.bucket
    (if ref.components = [] then none else some ref.fullPath)⟩

end StorageReference

structure StorageObject where
  data : Data
  contentType : String
  deriving DecidableEq, Repr

/-- The `downloadTokens` of an object that has some; without them there is no
download URL, and the call fails. -/
structure DownloadTokens where
  text : String
  nonempty : 0 < text.length
  deriving DecidableEq, Repr

/-- The download URL of an object that was given these tokens. -/
def StorageReference.downloadURL (ref : StorageReference) (tokens : DownloadTokens) : String :=
  downloadURLOf ref.bucket ref.fullPath tokens.text

/-! ## Calls -/

inductive Request where
  | signIn (email password : String)
  | createUser (email password firstName lastName : String)
  | putData (ref : StorageReference) (object : StorageObject) (userDictData : Dictionary)
  | downloadURL (ref : StorageReference) (userDictData : Dictionary)
  /-- `completion` says whether the caller passed a completion handler. -/
  | setData (write : DocumentWrite) (completion : Bool)
  deriving DecidableEq, Repr

inductive Answer where
  | signIn (reply : Reply Unit)
  | createUser (reply : AccountReply)
  | putData (reply : Reply Unit)
  /-- A success carries the object's access tokens. -/
  | downloadURL (reply : Reply DownloadTokens)
  | setData (reply : Reply Unit)
  deriving DecidableEq, Repr

def Request.isWrite : Request → Bool
  | .setData .. => true
  | _ => false

/-- Is there a completion handler waiting for the answer? -/
def Request.awaits : Request → Bool
  | .setData _ completion => completion
  | _ => true

/-- Is this an answer to that kind of request? -/
def Request.fits : Request → Answer → Bool
  | .signIn .., .signIn _ => true
  | .createUser .., .createUser _ => true
  | .putData .., .putData _ => true
  | .downloadURL .., .downloadURL _ => true
  | .setData .., .setData _ => true
  | _, _ => false

def Answer.succeeded : Answer → Bool
  | .signIn r => r.value.isSome
  | .createUser r => r.value.isSome
  | .putData r => r.value.isSome
  | .downloadURL r => r.value.isSome
  | .setData r => r.value.isSome

/-! ## Small facts beside the definitions -/

@[simp] theorem DocumentWrite.apply_self (w : DocumentWrite) (c : Collection) :
    w.apply c w.document = some (w.result (c w.document)) := by
  rw [apply, Function.update_self]

theorem DocumentWrite.apply_of_ne {w : DocumentWrite} {c : Collection} {document : String}
    (h : document ≠ w.document) : w.apply c document = c document := by
  rw [apply, Function.update_of_ne h]

theorem downloadURLFromMetadataDictionary_eq (ref : StorageReference) (tokens : DownloadTokens) :
    downloadURLFromMetadataDictionary ⟨ref.bucket, ref.fullPath, some tokens.text⟩ =
      some (ref.downloadURL tokens) :=
  if_pos tokens.nonempty

theorem downloadURL_ne_empty (ref : StorageReference) (tokens : DownloadTokens) :
    ref.downloadURL tokens ≠ "" := by
  intro h
  have hscheme := (String.append_eq_empty_iff.mp (String.append_eq_empty_iff.mp h).1).1
  exact absurd (String.append_eq_empty_iff.mp hscheme).1 (by decide)

/-- Two references of one bucket whose paths differ have no download URL in
common, whatever the tokens. -/
theorem downloadURL_inj {bucket : String} {path path' : List String} {t t' : DownloadTokens}
    (h : (StorageReference.mk bucket path).downloadURL t =
      (StorageReference.mk bucket path').downloadURL t') :
    "/".intercalate path = "/".intercalate path' := by
  have hlist := congrArg String.toList h
  unfold StorageReference.downloadURL at hlist
  rw [toList_downloadURLOf, toList_downloadURLOf] at hlist
  have hcut := List.append_cancel_left (List.append_cancel_left (List.append_cancel_left hlist))
  have hq : ∀ s, '?' ∉ escape gcsObjectAllowed s :=
    not_mem_escape (by decide) (by decide) (by decide)
  exact escape_inj (by decide) (append_cons_inj_left (hq _) (hq _) hcut)

end Pompeius
