import JudgeIt.Async.Environment
import JudgeIt.Js.Text

/-!
# The storage service

`StorageService` reads the objects under a prefix of a bucket: it lists their keys, leaves out those
that stand for folders, and gets each of the others. Listing is one call, and the answer is one
page: the first keys in key order, at most 1000 of them, with a token for the next page if there are
more. Nobody reads the token.

What is fetched is therefore what is on the first page. `fetchObjectContents_complete_iff` says when
that is everything: when all that lies beyond it are folders.
-/

namespace JudgeIt

open Async JsString

/-! ## What the service calls -/

/-- An object of a bucket, as it is stored and as it is returned. -/
structure StoredObject where
  key : JsString
  content : JsString
  deriving DecidableEq

/-- The answer to `ListObjectsV2`, with its keys. -/
structure ListObjectsV2Response where
  Contents : Option (List JsString)
  NextContinuationToken : Option JsString

/-- The calls of the service. -/
inductive StorageCall
  /-- `process.hrtime()`, in nanoseconds. -/
  | hrtime
  /-- `client.send(new ListObjectsV2Command(..))`, without a continuation token. -/
  | listObjectsV2 (bucket pre : JsString)
  /-- `client.send(new GetObjectCommand(..))`, for the body. -/
  | getObject (bucket key : JsString)
  /-- `data.Body.transformToString()`. -/
  | transformToString (body : JsString)
  /-- `storageServiceLatency.observe(seconds)`. -/
  | observe (seconds : ℚ)
  deriving DecidableEq

/-- What each call is answered with. -/
@[reducible] def StorageCall.Res : StorageCall → Type
  | hrtime => ℤ
  | listObjectsV2 .. => Except JsString ListObjectsV2Response
  | getObject .. | transformToString _ => Except JsString JsString
  | observe _ => Unit

/-- What reads from storage. -/
abbrev Fetching := Program StorageCall.Res JsString

/-! ## The program -/

/-- `listObjectKeys(bucket, prefix)`. -/
def listObjectKeys (bucket pre : JsString) : Fetching (List JsString) :=
  (Program.request (StorageCall.listObjectsV2 bucket pre)).bind fun
    | .error e => .throw e
    | .ok response => pure (response.Contents.getD [])

/-- One round of the fetch: the object with its content. -/
def fetchObject (bucket key : JsString) : Fetching StoredObject :=
  (Program.request (StorageCall.getObject bucket key)).bind fun
    | .error e => .throw e
    | .ok body => (Program.request (StorageCall.transformToString body)).bind fun
      | .error e => .throw e
      | .ok content => pure ⟨key, content⟩

/-- `key.endsWith('/')`. -/
def IsFolder (key : JsString) : Prop := [slash] <:+ key

instance : DecidablePred IsFolder := fun key ↦ inferInstanceAs (Decidable ([slash] <:+ key))

/-- `fetchObjectContents(bucket, prefix)`. -/
def fetchObjectContents (bucket pre : JsString) : Fetching (List StoredObject) := do
  let startTime ← Program.request StorageCall.hrtime
  let listed ← listObjectKeys bucket pre
  let keys := listed.filter fun key ↦ ¬IsFolder key
  let objectsData ← Program.all (fetchObject bucket) keys
  let finishTime ← Program.request StorageCall.hrtime
  Program.request (StorageCall.observe ((finishTime - startTime : ℤ) / 1000000000))
  pure objectsData

/-! ## The store -/

/-- The objects of a bucket in key order, one for each key. -/
structure Bucket where
  objects : List StoredObject
  nodup : (objects.map StoredObject.key).Nodup

/-- The store: its buckets, and how many keys it lists on a page. -/
structure S3 where
  bucket : JsString → Bucket
  pageSize : ℕ
  pageSize_le : pageSize ≤ 1000

/-- The objects whose key has the prefix, in key order. -/
def S3.objectsUnder (s3 : S3) (bucket pre : JsString) : List StoredObject :=
  (s3.bucket bucket).objects.filter fun o ↦ pre <+: o.key

/-- Calls are answered from the store, which does not change, or reject. A listing is the first
page, with a token if it is not the last. -/
def S3.Answers : Env S3 StorageCall.Res := fun s3 op r s3' ↦ s3' = s3 ∧
  match op, r with
  | .listObjectsV2 bucket pre, .ok response =>
    response.Contents.getD []
      = ((s3.objectsUnder bucket pre).take s3.pageSize).map StoredObject.key ∧
    (response.NextContinuationToken.isSome ↔ s3.pageSize < (s3.objectsUnder bucket pre).length)
  | .getObject bucket key, .ok body => ⟨key, body⟩ ∈ (s3.bucket bucket).objects
  | .transformToString body, .ok content => content = body
  | _, _ => True

variable {s3 s3' : S3} {bucket pre : JsString} {tr : List (Event StorageCall.Res)}
  {entries : List StoredObject}

/-! ## What is fetched -/

theorem eval_listObjectKeys {keys : List JsString}
    (h : (listObjectKeys bucket pre).Eval tr (.ok keys)) (hs : S3.Answers.Steps s3 tr s3') :
    keys = ((s3.objectsUnder bucket pre).take s3.pageSize).map StoredObject.key := by
  obtain ⟨r, tr', rfl, hr⟩ := Program.eval_request_bind_iff.mp h
  obtain ⟨_, ⟨-, hanswer⟩, -⟩ := hs
  cases r with
  | error e => cases hr.2
  | ok response =>
    obtain ⟨-, hout⟩ := hr
    cases hout
    exact hanswer.1

theorem eval_fetchObject {key : JsString} {o : StoredObject}
    (h : (fetchObject bucket key).Eval tr (.ok o)) (hs : S3.Answers.Steps s3 tr s3') :
    o.key = key ∧ o ∈ (s3.bucket bucket).objects := by
  obtain ⟨r, tr', rfl, hr⟩ := Program.eval_request_bind_iff.mp h
  obtain ⟨_, ⟨rfl, hanswer⟩, hs⟩ := hs
  cases r with
  | error e => cases hr.2
  | ok body =>
    obtain ⟨r, tr'', rfl, hr'⟩ := Program.eval_request_bind_iff.mp hr
    obtain ⟨_, ⟨rfl, hanswer'⟩, hs⟩ := hs
    cases r with
    | error e => cases hr'.2
    | ok content =>
      obtain ⟨-, hout⟩ := hr'
      cases hout
      obtain rfl : content = body := hanswer'
      exact ⟨rfl, hanswer⟩

theorem Bucket.eq_of_fetched (b : Bucket) {objects : List StoredObject} (hsub : objects ⊆ b.objects)
    (h : List.Forall₂ (fun key o ↦ o.key = key ∧ o ∈ b.objects) (objects.map StoredObject.key)
      entries) : entries = objects := by
  induction objects generalizing entries with
  | nil => exact List.forall₂_nil_left_iff.mp h
  | cons o objects ih =>
    rw [List.map_cons, List.forall₂_cons_left_iff] at h
    obtain ⟨o', entries, ⟨hkey, hmem⟩, h, rfl⟩ := h
    rw [List.inj_on_of_nodup_map b.nodup hmem (hsub List.mem_cons_self) hkey,
      ih (List.subset_of_cons_subset hsub) h]

/-- **What is fetched** is the first page, without the folders. -/
theorem eval_fetchObjectContents (h : (fetchObjectContents bucket pre).Eval tr (.ok entries))
    (hs : S3.Answers.Steps s3 tr s3') :
    entries = ((s3.objectsUnder bucket pre).take s3.pageSize).filter fun o ↦ ¬IsFolder o.key := by
  obtain ⟨startTime, tr₁, rfl, h₁⟩ := Program.eval_request_bind_iff.mp h
  rcases Program.eval_bind_iff.mp h₁ with ⟨e, -, hout⟩ | ⟨listed, tr₂, tr₃, rfl, h₂, h₃⟩
  · cases hout
  rcases Program.eval_bind_iff.mp h₃ with ⟨e, -, hout⟩ | ⟨objectsData, tr₄, tr₅, rfl, h₄, h₅⟩
  · cases hout
  obtain ⟨finishTime, tr₆, rfl, u, tr₇, rfl, -, hout⟩ := h₅
  cases hout
  have hsteps : ∀ part, part <:+: _ → S3.Answers.Steps s3 part s3 := fun part ↦
    Env.steps_infix_of_frame (fun _ _ _ _ hs ↦ hs.1) hs
  have hlisted := eval_listObjectKeys h₂ (hsteps tr₂ ⟨[_], _, rfl⟩)
  have hfilter : listed.filter (fun key ↦ ¬IsFolder key)
      = (((s3.objectsUnder bucket pre).take s3.pageSize).filter fun o ↦ ¬IsFolder o.key).map
        StoredObject.key := by
    rw [hlisted, List.filter_map]
    rfl
  rw [hfilter] at h₄
  refine (s3.bucket bucket).eq_of_fetched ?_ (h₄.all_ok.imp fun key o ⟨seg, hseg, ho⟩ ↦ ?_)
  · intro o ho
    exact (List.mem_filter.mp (List.mem_of_mem_take (List.mem_filter.mp ho).1)).1
  · have hpart : ∀ rest, tr₄ <:+: tr₂ ++ (tr₄ ++ rest) := fun rest ↦
      ⟨tr₂, rest, List.append_assoc ..⟩
    exact eval_fetchObject ho
      (hsteps seg (hseg.trans ((hpart _).trans (List.suffix_cons ..).isInfix)))

/-- **When nothing is left out.** In every fetch that resolves, there is exactly one entry for each
object under the prefix that is no folder, exactly when all objects beyond the first page are. -/
theorem fetchObjectContents_complete_iff
    (h : (fetchObjectContents bucket pre).Eval tr (.ok entries)) (hs : S3.Answers.Steps s3 tr s3') :
    entries.Perm ((s3.objectsUnder bucket pre).filter fun o ↦ ¬IsFolder o.key) ↔
      ∀ o ∈ (s3.objectsUnder bucket pre).drop s3.pageSize, IsFolder o.key := by
  rw [eval_fetchObjectContents h hs]
  have hsplit : (s3.objectsUnder bucket pre).filter (fun o ↦ ¬IsFolder o.key)
      = ((s3.objectsUnder bucket pre).take s3.pageSize).filter (fun o ↦ ¬IsFolder o.key)
        ++ ((s3.objectsUnder bucket pre).drop s3.pageSize).filter fun o ↦ ¬IsFolder o.key := by
    rw [← List.filter_append, List.take_append_drop]
  rw [hsplit]
  constructor
  · intro hperm o ho
    have hlen := hperm.length_eq
    rw [List.length_append] at hlen
    have hnil := List.length_eq_zero_iff.mp (by omega :
      (((s3.objectsUnder bucket pre).drop s3.pageSize).filter fun o ↦ ¬IsFolder o.key).length = 0)
    by_contra hnot
    exact absurd (decide_eq_true hnot) (List.filter_eq_nil_iff.mp hnil o ho)
  · intro hall
    have hnil : ((s3.objectsUnder bucket pre).drop s3.pageSize).filter (fun o ↦ ¬IsFolder o.key)
        = [] := List.filter_eq_nil_iff.mpr fun o ho ↦ by simpa using hall o ho
    rw [hnil, List.append_nil]

theorem exists_fetchObjectContents (s3 : S3) (bucket pre : JsString) : ∃ tr entries,
    (fetchObjectContents bucket pre).Eval tr (.ok entries) ∧ S3.Answers.Steps s3 tr s3 := by
  set page := ((s3.objectsUnder bucket pre).take s3.pageSize).map StoredObject.key with hpage
  have hobject : ∀ key ∈ page.filter (fun key ↦ ¬IsFolder key), ∃ tr o,
      (fetchObject bucket key).Eval tr (.ok o) ∧ S3.Answers.Steps s3 tr s3 := by
    intro key hkey
    obtain ⟨o, ho, rfl⟩ := List.mem_map.mp (List.mem_filter.mp hkey).1
    have hmem : o ∈ (s3.bucket bucket).objects := (List.mem_filter.mp (List.mem_of_mem_take ho)).1
    exact ⟨[⟨.getObject bucket o.key, .ok o.content⟩,
      ⟨.transformToString o.content, .ok o.content⟩], o,
      ⟨_, _, rfl, _, _, rfl, rfl, rfl⟩, s3, ⟨rfl, hmem⟩, s3, ⟨rfl, rfl⟩, rfl⟩
  obtain ⟨tr, entries, hall, hs⟩ := Env.exists_all hobject
  let token : Option JsString :=
    if s3.pageSize < (s3.objectsUnder bucket pre).length then some [] else none
  have hlist : (listObjectKeys bucket pre).Eval
      [⟨.listObjectsV2 bucket pre, .ok ⟨some page, token⟩⟩] (.ok page) := ⟨_, [], rfl, rfl, rfl⟩
  refine ⟨⟨.hrtime, (0 : ℤ)⟩ :: ([⟨.listObjectsV2 bucket pre, .ok ⟨some page, token⟩⟩] ++
    (tr ++ [⟨.hrtime, (0 : ℤ)⟩, ⟨.observe ((0 - 0 : ℤ) / 1000000000), ()⟩])), entries, ?_, ?_⟩
  · refine Program.eval_request_bind_iff.mpr ⟨(0 : ℤ), _, rfl, ?_⟩
    refine Program.eval_bind_iff.mpr (Or.inr ⟨page, _, _, rfl, hlist, ?_⟩)
    refine Program.eval_bind_iff.mpr (Or.inr ⟨entries, _, _, rfl, hall, ?_⟩)
    exact ⟨(0 : ℤ), _, rfl, (), _, rfl, rfl, rfl⟩
  · have htoken : token.isSome ↔ s3.pageSize < (s3.objectsUnder bucket pre).length := by
      simp only [token]
      split <;> simp [*]
    refine ⟨s3, ⟨rfl, trivial⟩, s3, ⟨rfl, hpage, htoken⟩, ?_⟩
    refine Env.steps_append.mpr ⟨s3, rfl, Env.steps_append.mpr ⟨s3, hs, ?_⟩⟩
    exact ⟨s3, ⟨rfl, trivial⟩, s3, ⟨rfl, trivial⟩, rfl⟩

/-- A bucket with two tests and a folder. -/
def smallBucket : Bucket where
  objects := [⟨"p/", []⟩, ⟨"p/1.in.txt", "3"⟩, ⟨"p/1.out.txt", "4"⟩]
  nodup := by decide

/-- All of it is fetched. -/
theorem fetchObjectContents_complete_iff_small : ∃ tr entries,
    (fetchObjectContents "b" "p/").Eval tr (.ok entries) ∧
      entries.Perm [⟨"p/1.in.txt", "3"⟩, ⟨"p/1.out.txt", "4"⟩] := by
  obtain ⟨tr, entries, h, hs⟩ :=
    exists_fetchObjectContents ⟨fun _ ↦ smallBucket, 1000, le_rfl⟩ "b" "p/"
  exact ⟨tr, entries, h, (fetchObjectContents_complete_iff h hs).mpr (by decide)⟩

/-- A bucket with so many objects, none of them a folder. -/
def flatBucket (n : ℕ) : Bucket where
  objects := (List.range n).map fun i ↦ ⟨List.replicate (i + 1) 97, []⟩
  nodup := by
    rw [List.map_map]
    refine List.Nodup.map (fun a b h ↦ ?_) List.nodup_range
    simpa using congrArg List.length h

theorem length_objects_flatBucket (n : ℕ) : (flatBucket n).objects.length = n := by
  simp [flatBucket]

theorem not_isFolder_of_mem_flatBucket {n : ℕ} {o : StoredObject}
    (ho : o ∈ (flatBucket n).objects) : ¬IsFolder o.key := by
  intro hfolder
  obtain ⟨i, -, rfl⟩ := List.mem_map.mp ho
  exact absurd (List.eq_of_mem_replicate (hfolder.subset List.mem_cons_self)) (by decide)

/-- Of 1001 objects the last is not fetched. -/
theorem not_fetchObjectContents_complete : ¬∀ (s3 s3' : S3) (bucket pre : JsString)
    (tr : List (Event StorageCall.Res)) (entries : List StoredObject),
    (fetchObjectContents bucket pre).Eval tr (.ok entries) → S3.Answers.Steps s3 tr s3' →
    entries.Perm ((s3.objectsUnder bucket pre).filter fun o ↦ ¬IsFolder o.key) := by
  intro hcomplete
  set s3 : S3 := ⟨fun _ ↦ flatBucket 1001, 1000, le_rfl⟩
  obtain ⟨tr, entries, h, hs⟩ := exists_fetchObjectContents s3 [] []
  have hunder : s3.objectsUnder [] [] = (flatBucket 1001).objects :=
    List.filter_eq_self.mpr fun o _ ↦ decide_eq_true List.nil_prefix
  have hpage : entries = (flatBucket 1001).objects.take 1000 := by
    rw [eval_fetchObjectContents h hs, hunder]
    exact List.filter_eq_self.mpr fun o ho ↦
      decide_eq_true (not_isFolder_of_mem_flatBucket (List.mem_of_mem_take ho))
  have hall : (s3.objectsUnder [] []).filter (fun o ↦ ¬IsFolder o.key)
      = (flatBucket 1001).objects := by
    rw [hunder]
    exact List.filter_eq_self.mpr fun o ho ↦ decide_eq_true (not_isFolder_of_mem_flatBucket ho)
  have hlength := (hcomplete s3 s3 [] [] tr entries h hs).length_eq
  rw [hpage, hall, List.length_take, length_objects_flatBucket] at hlength
  omega

end JudgeIt
