import Ketebe.CollectionFiles
import Ketebe.Lib.BoundedSort
import Ketebe.Lib.Directories
import Ketebe.SegmentCodec

/-!
The segment store in the file system. A segment is written aside under the name of its file
with one more extension, which `discover` passes over. Whatever fails or crashes on the way,
the files are those of the store that publishes and deletes segments in one step.
-/
namespace Ketebe

open Lib.BoundedSort Lib.ByteCodec Lib.Directories Lib.Durable Lib.Durable.Program Lib.FramedFile

/-- A segment that was made of mutations. -/
structure BuiltSegment where
  segment : Segment
  mutations : List WalMutation
  built : Segment.fromMutations segment.id mutations = .ok segment

namespace SegmentFiles

def tempKey (key : String) : String := key ++ ".tmp"

def die : Program Directory SegmentError Unit := fun world => (.crashed, world)

/-- A vector has less than 2⁶³ bytes; the process does not survive the attempt to allocate a
longer one. -/
def allocate (bytes : Bytes) : Program Directory SegmentError Unit :=
  if bytes.length < 2 ^ 63 then pure () else die

def publishAtomic (key : String) (bytes : Bytes) : Program Directory SegmentError Unit := do
  let directory ← get
  if key ∈ directory then throw .backend
  else do
    removeIfExists .backend (tempKey key)
    replaceFile .backend (tempKey key) key bytes

def publish (segment : Segment) : Program Directory SegmentError Unit := do
  let directory ← get
  if segmentKey segment.id ∈ directory then throw .backend
  else do
    let bytes ← lift (SegmentFile.encodeSegment segment)
    allocate bytes
    publishAtomic (segmentKey segment.id) bytes

def deleteSegment (id : SegmentId) : Program Directory SegmentError Bool := do
  let directory ← get
  if segmentKey id ∈ directory then do
    durable .backend (·.erase (segmentKey id))
    attempt .backend
    pure true
  else pure false

def entries (directory : Directory) : List NamedEntry :=
  directory.toList.map fun file => ⟨file.1, .file (SegmentFile.decodeSegment file.2)⟩

def discover (directory : Directory) : Except SegmentError (List Segment) :=
  SegmentsPath.discover (entries directory)

def openSegment (directory : Directory) (id : SegmentId) : Except SegmentError Segment :=
  SegmentsPath.openSegment (entries directory) id

def parseStem (stem : List Char) : Except SegmentError SegmentId :=
  match parseU64 stem with
  | some id => .ok id
  | none => .error (.corrupt "invalid segment location key")

def listSegmentIds (directory : Directory) : Except SegmentError (List SegmentId) := do
  let ids ← (directory.keys.filterMap segmentStem).mapM parseStem
  pure (ids.mergeSort fun left right => left ≤ right)

/-! ### What the files stand for -/

/-- The files with the extension of segments are those of the store. -/
structure Represents (directory : Directory) (store : SegmentStore) : Prop where
  distinct : (store.files.map Segment.id).Nodup
  known : ∀ (name : String) (content : Bytes) (stem : List Char),
    directory[name]? = some content → segmentStem name = some stem → ∃ segment ∈ store.files,
      segmentKey segment.id = name ∧ SegmentFile.decodeSegment content = .ok segment
  stored : ∀ segment ∈ store.files, ∃ content : Bytes,
    directory[segmentKey segment.id]? = some content ∧
      SegmentFile.decodeSegment content = .ok segment

section Names

variable {name : String}

theorem segmentStem_temp (key : String) : segmentStem (tempKey key) = none := by
  cases hstem : segmentStem (tempKey key) with
  | none => rfl
  | some stem =>
    have hsuffix := congrArg List.getLast? (segmentStem_eq_some.mp hstem)
    rw [tempKey, String.toList_append, List.getLast?_append_of_ne_nil _ (by decide),
      List.getLast?_append_of_ne_nil _ (by decide)] at hsuffix
    cases hsuffix

theorem temp_ne_of_stem {key : String} {stem : List Char} (h : segmentStem name = some stem) :
    name ≠ tempKey key := by
  rintro rfl
  rw [segmentStem_temp] at h
  cases h

theorem key_ne_temp (id : SegmentId) (key : String) : segmentKey id ≠ tempKey key := by
  obtain ⟨stem, hstem, -⟩ := segmentStem_key id
  exact temp_ne_of_stem hstem

end Names

section Represents

variable {directory after : Directory} {store : SegmentStore}

theorem represents_empty : Represents ∅ ⟨[]⟩ := by
  refine ⟨List.nodup_nil, fun name content stem h => ?_, fun _ h => absurd h List.not_mem_nil⟩
  rw [Std.ExtTreeMap.getElem?_empty] at h
  cases h

namespace Represents

theorem mem_iff (h : Represents directory store) {id : SegmentId} :
    segmentKey id ∈ directory ↔ store.exists id = true := by
  rw [SegmentStore.exists, List.any_eq_true]
  constructor
  · intro hmem
    obtain ⟨content, hcontent⟩ := Std.ExtTreeMap.mem_iff_isSome_getElem?.mp hmem |>
      Option.isSome_iff_exists.mp
    obtain ⟨stem, hstem, -⟩ := segmentStem_key id
    obtain ⟨segment, hsegment, hkey, -⟩ := h.known _ content stem hcontent hstem
    exact ⟨segment, hsegment, decide_eq_true (segmentKey_injective hkey)⟩
  · rintro ⟨segment, hsegment, hid⟩
    obtain ⟨content, hcontent, -⟩ := h.stored segment hsegment
    rw [of_decide_eq_true hid] at hcontent
    exact Std.ExtTreeMap.mem_iff_isSome_getElem?.mpr (Option.isSome_of_mem hcontent)

/-- Files with another extension stand for nothing. -/
theorem sameBut {key : String} (h : Represents directory store)
    (hsame : SameBut (tempKey key) directory after) : Represents after store := by
  refine ⟨h.distinct, fun name content stem hcontent hstem => ?_, fun segment hsegment => ?_⟩
  · rw [hsame name (temp_ne_of_stem hstem)] at hcontent
    exact h.known name content stem hcontent hstem
  · rw [hsame _ (key_ne_temp _ key)]
    exact h.stored segment hsegment

theorem publish {segment : Segment} {bytes : Bytes} (h : Represents directory store)
    (hnew : store.exists segment.id = false)
    (hbytes : SegmentFile.decodeSegment bytes = .ok segment)
    (hreplaced : Replaced (tempKey (segmentKey segment.id)) (segmentKey segment.id) bytes directory
      after) : Represents after (store.publish segment) := by
  obtain ⟨hfile, hothers⟩ := hreplaced
  have hfresh : ∀ other ∈ store.files, other.id ≠ segment.id := by
    rw [SegmentStore.exists, List.any_eq_false] at hnew
    exact fun other hother hid => hnew other hother (decide_eq_true hid)
  refine ⟨?_, fun name content stem hcontent hstem => ?_, fun other hother => ?_⟩
  · rw [SegmentStore.publish, List.map_append]
    refine List.nodup_append.mpr ⟨h.distinct, List.nodup_singleton _, ?_⟩
    intro id hid last hlast
    obtain ⟨other, hother, rfl⟩ := List.mem_map.mp hid
    rw [List.map_singleton, List.mem_singleton] at hlast
    rw [hlast]
    exact hfresh other hother
  · by_cases hname : name = segmentKey segment.id
    · rw [hname, hfile] at hcontent
      cases hcontent
      exact ⟨segment, List.mem_append_right _ (List.mem_singleton_self _), hname.symm, hbytes⟩
    · rw [hothers name (temp_ne_of_stem hstem) hname] at hcontent
      obtain ⟨other, hother, hfound⟩ := h.known name content stem hcontent hstem
      exact ⟨other, List.mem_append_left _ hother, hfound⟩
  · rcases List.mem_append.mp hother with hold | hlast
    · rw [hothers _ (key_ne_temp _ _) fun heq => hfresh other hold (segmentKey_injective heq)]
      exact h.stored other hold
    · rw [List.mem_singleton.mp hlast]
      exact ⟨bytes, hfile, hbytes⟩

theorem deleteSegment (h : Represents directory store) (id : SegmentId) :
    Represents (directory.erase (segmentKey id)) (store.deleteSegment id) := by
  refine ⟨?_, fun name content stem hcontent hstem => ?_, fun segment hsegment => ?_⟩
  · exact h.distinct.sublist (List.filter_sublist.map Segment.id)
  · by_cases hname : name = segmentKey id
    · rw [hname, getElem?_erase_self] at hcontent
      cases hcontent
    · rw [getElem?_erase_ne hname] at hcontent
      obtain ⟨segment, hsegment, hkey, hdecode⟩ := h.known name content stem hcontent hstem
      refine ⟨segment, List.mem_filter.mpr ⟨hsegment, decide_eq_true fun hid => hname ?_⟩, hkey,
        hdecode⟩
      rw [← hkey, hid]
  · obtain ⟨hmem, hid⟩ := List.mem_filter.mp hsegment
    rw [getElem?_erase_ne fun heq => of_decide_eq_true hid (segmentKey_injective heq)]
    exact h.stored segment hmem

end Represents

/-! ### What is read -/

/-- Values of a traversal relate as those of its elements do. -/
theorem pairwise_of_mapM {α β ε : Type} {f : α → Except ε β} {r : β → β → Prop}
    {elements : List α} {values : List β} (h : elements.mapM f = .ok values)
    (hpairs : elements.Pairwise fun left right => ∀ first second : β,
      f left = .ok first → f right = .ok second → r first second) : values.Pairwise r := by
  have hall := except_mapM_ok.mp h
  clear h
  induction hall with
  | nil => exact .nil
  | cons hhead hrest ih =>
    obtain ⟨hfirst, hlater⟩ := List.pairwise_cons.mp hpairs
    refine List.pairwise_cons.mpr ⟨fun value hvalue => ?_, ih hlater⟩
    obtain ⟨element, helement, hok⟩ :=
      (mem_of_except_mapM (except_mapM_ok.mpr hrest)).1 value hvalue
    exact hfirst element helement _ value hhead hok

theorem nodup_names (directory : Directory) :
    (entries directory).Pairwise fun left right => left.name ≠ right.name := by
  refine List.pairwise_map.mpr (Std.ExtTreeMap.distinct_keys_toList.imp fun hne hsame => hne ?_)
  exact compare_eq_iff_eq.mpr hsame

theorem mem_entries {entry : NamedEntry} : entry ∈ entries directory ↔ ∃ content : Bytes,
    directory[entry.name]? = some content ∧
      entry.entry = .file (SegmentFile.decodeSegment content) := by
  rw [entries, List.mem_map]
  constructor
  · rintro ⟨⟨name, content⟩, hfile, rfl⟩
    exact ⟨content, Std.ExtTreeMap.mem_toList_iff_getElem?_eq_some.mp hfile, rfl⟩
  · rintro ⟨content, hcontent, hentry⟩
    obtain ⟨name, kind⟩ := entry
    obtain rfl : kind = _ := hentry
    exact ⟨(name, content), Std.ExtTreeMap.mem_toList_iff_getElem?_eq_some.mpr hcontent, rfl⟩

theorem orders_precedes {files : List Segment} (h : (files.map Segment.id).Nodup) :
    Orders SegmentStore.precedes files := by
  have hiff (left right : Segment) : SegmentStore.precedes left right = true ↔
      left.minSequence < right.minSequence ∨
        left.minSequence = right.minSequence ∧ left.id ≤ right.id := by
    simp [SegmentStore.precedes]
  refine ⟨fun a b c hab hbc => ?_, fun a b => ?_, fun a ha b hb hab hba => ?_⟩
  · rw [hiff] at hab hbc ⊢
    rcases hab with hab | ⟨hab, hid⟩
    · rcases hbc with hbc | ⟨hbc, -⟩
      · exact .inl (hab.trans hbc)
      · exact .inl (hbc ▸ hab)
    · rcases hbc with hbc | ⟨hbc, hid'⟩
      · exact .inl (hab ▸ hbc)
      · exact .inr ⟨hab.trans hbc, hid.trans hid'⟩
  · rw [Bool.or_eq_true, hiff, hiff]
    rcases lt_trichotomy a.minSequence b.minSequence with hlt | heq | hgt
    · exact .inl (.inl hlt)
    · rcases le_total a.id b.id with hid | hid
      · exact .inl (.inr ⟨heq, hid⟩)
      · exact .inr (.inr ⟨heq.symm, hid⟩)
    · exact .inr (.inl hgt)
  · rw [hiff] at hab hba
    have hid : a.id = b.id := by
      rcases hab with hab | ⟨hab, hid⟩
      · rcases hba with hba | ⟨hba, -⟩
        · exact absurd (hab.trans hba) (lt_irrefl _)
        · exact absurd (hba ▸ hab) (lt_irrefl _)
      · rcases hba with hba | ⟨-, hid'⟩
        · exact absurd (hab ▸ hba) (lt_irrefl _)
        · exact le_antisymm hid hid'
    exact List.inj_on_of_nodup_map h ha hb hid

namespace Represents

/-- The contents that are decoded belong to segments of the store, each to its own. -/
theorem content_of_entry (h : Represents directory store) {entry : NamedEntry}
    (hentry : entry ∈ entries directory) {content : Except SegmentError Segment}
    (hcontent : entry.segmentContent = some content) :
    ∃ segment ∈ store.files, segmentKey segment.id = entry.name ∧ content = .ok segment := by
  obtain ⟨bytes, hbytes, hfile⟩ := mem_entries.mp hentry
  unfold NamedEntry.segmentContent at hcontent
  rw [hfile] at hcontent
  cases hstem : segmentStem entry.name with
  | none =>
    rw [hstem] at hcontent
    cases hcontent
  | some stem =>
    rw [hstem] at hcontent
    obtain ⟨segment, hsegment, hkey, hdecode⟩ := h.known _ bytes stem hbytes hstem
    exact ⟨segment, hsegment, hkey, (Option.some.inj hcontent).symm.trans hdecode⟩

theorem entry_of_segment (h : Represents directory store) {segment : Segment}
    (hsegment : segment ∈ store.files) : NamedEntry.ofSegment segment ∈ entries directory := by
  obtain ⟨content, hcontent, hdecode⟩ := h.stored segment hsegment
  refine mem_entries.mpr ⟨content, hcontent, ?_⟩
  rw [hdecode]
  rfl

/-- Files of different names hold different segments. -/
theorem nodup_decoded (h : Represents directory store) {decoded : List Segment}
    (hdecoded : SegmentsPath.decodeAll (entries directory) = .ok decoded) :
    (decoded.map Segment.id).Nodup := by
  have hsorted : ((entries directory).mergeSort fun left right => left.name ≤ right.name).Pairwise
      fun left right => left.name ≠ right.name :=
    (List.mergeSort_perm _ _).symm.pairwise (nodup_names directory) fun hne => hne.symm
  have hkept : (((entries directory).mergeSort fun left right => left.name ≤ right.name).filterMap
      NamedEntry.segmentContent).Pairwise fun left right => ∀ first second : Segment,
        left = .ok first → right = .ok second → first.id ≠ second.id := by
    refine List.pairwise_filterMap.mpr (hsorted.imp_of_mem ?_)
    intro left right hleft hright hne content hcontent content' hcontent' first second hfirst hsecond
    obtain ⟨segment, -, hkey, hok⟩ := h.content_of_entry (List.mem_mergeSort.mp hleft) hcontent
    obtain ⟨segment', -, hkey', hok'⟩ := h.content_of_entry (List.mem_mergeSort.mp hright) hcontent'
    obtain rfl : first = segment := Except.ok.inj (hfirst.symm.trans hok)
    obtain rfl : second = segment' := Except.ok.inj (hsecond.symm.trans hok')
    intro hid
    rw [hid] at hkey
    exact hne (hkey.symm.trans hkey')
  exact List.pairwise_map.mpr (pairwise_of_mapM hdecoded hkept)

theorem discover_eq (h : Represents directory store) : discover directory = .ok store.discover := by
  obtain ⟨decoded, hdecoded⟩ :
      ∃ decoded, SegmentsPath.decodeAll (entries directory) = .ok decoded := by
    refine except_mapM_exists.mpr fun content hcontent => ?_
    obtain ⟨entry, hmem, hkept⟩ := List.mem_filterMap.mp hcontent
    obtain ⟨segment, -, -, hok⟩ := h.content_of_entry (List.mem_mergeSort.mp hmem) hkept
    exact ⟨segment, hok⟩
  have hdiscover : discover directory = .ok (decoded.mergeSort SegmentStore.precedes) := by
    rw [discover, SegmentsPath.discover, hdecoded]
    rfl
  obtain ⟨hinto, hfrom⟩ := SegmentsPath.mem_discover hdiscover
  have hmem (segment : Segment) : segment ∈ decoded ↔ segment ∈ store.files := by
    constructor
    · intro hsegment
      obtain ⟨entry, hentry, hcontent⟩ := hfrom segment (List.mem_mergeSort.mpr hsegment)
      obtain ⟨other, hother, -, hok⟩ := h.content_of_entry hentry hcontent
      rw [Except.ok.inj hok]
      exact hother
    · intro hsegment
      obtain ⟨other, hother, hok⟩ := hinto _ (h.entry_of_segment hsegment) _
        (NamedEntry.segmentContent_ofSegment segment)
      rw [Except.ok.inj hok]
      exact List.mem_mergeSort.mp hother
  have hperm : decoded.Perm store.files :=
    (List.perm_ext_iff_of_nodup (h.nodup_decoded hdecoded).of_map h.distinct.of_map).mpr hmem
  have horders := orders_precedes h.distinct
  have hsame : decoded.mergeSort SegmentStore.precedes = store.discover :=
    (horders.mono hperm.subset).mergeSort_eq (horders.pairwise_mergeSort _)
      (hperm.trans (List.mergeSort_perm _ _).symm)
  rw [hdiscover, hsame]

theorem openSegment_eq (h : Represents directory store) (id : SegmentId) :
    openSegment directory id = store.openSegment id := by
  rw [openSegment, SegmentsPath.openSegment, SegmentsPath.entryAt]
  cases hfind : (entries directory).find? fun entry => entry.name = segmentKey id with
  | none =>
    have hmissing : store.exists id = false := by
      rw [← Bool.not_eq_true, ← h.mem_iff]
      intro hmem
      obtain ⟨content, hcontent⟩ := Option.isSome_iff_exists.mp
        (Std.ExtTreeMap.mem_iff_isSome_getElem?.mp hmem)
      have hentry : ⟨segmentKey id, .file (SegmentFile.decodeSegment content)⟩ ∈
          entries directory := mem_entries.mpr ⟨content, hcontent, rfl⟩
      exact absurd (decide_eq_true rfl) (List.find?_eq_none.mp hfind _ hentry)
    rw [SegmentStore.exists, List.any_eq_false] at hmissing
    rw [SegmentStore.openSegment, List.find?_eq_none.mpr hmissing]
    rfl
  | some entry =>
    have hname : entry.name = segmentKey id := by simpa using List.find?_some hfind
    obtain ⟨content, hcontent, hentry⟩ := mem_entries.mp (List.mem_of_find?_eq_some hfind)
    obtain ⟨stem, hstem, -⟩ := segmentStem_key id
    rw [hname] at hcontent
    obtain ⟨segment, hsegment, hkey, hdecode⟩ := h.known _ content stem hcontent hstem
    rw [← segmentKey_injective hkey, SegmentStore.openSegment_ok h.distinct hsegment,
      Option.map_some, hentry]
    exact hdecode

theorem nodup_keys (directory : Directory) : directory.keys.Nodup :=
  Std.ExtTreeMap.distinct_keys.imp fun hne hsame => hne (compare_eq_iff_eq.mpr hsame)

theorem parseStem_key {id : SegmentId} {stem : List Char}
    (h : segmentStem (segmentKey id) = some stem) : parseStem stem = .ok id := by
  obtain ⟨known, hknown, hparse⟩ := segmentStem_key id
  rw [Option.some.inj (h.symm.trans hknown), parseStem, hparse]

theorem segment_of_name (h : Represents directory store) {name : String} {stem : List Char}
    (hname : name ∈ directory.keys) (hstem : segmentStem name = some stem) :
    ∃ segment ∈ store.files, segmentKey segment.id = name := by
  obtain ⟨content, hcontent⟩ := Option.isSome_iff_exists.mp
    (Std.ExtTreeMap.mem_iff_isSome_getElem?.mp (Std.ExtTreeMap.mem_keys.mp hname))
  obtain ⟨segment, hsegment, hkey, -⟩ := h.known name content stem hcontent hstem
  exact ⟨segment, hsegment, hkey⟩

theorem listSegmentIds_eq (h : Represents directory store) :
    listSegmentIds directory = .ok store.listSegmentIds := by
  obtain ⟨ids, hids⟩ : ∃ ids, (directory.keys.filterMap segmentStem).mapM parseStem = .ok ids := by
    refine except_mapM_exists.mpr fun stem hstem => ?_
    obtain ⟨name, hname, hstem⟩ := List.mem_filterMap.mp hstem
    obtain ⟨segment, -, hkey⟩ := h.segment_of_name hname hstem
    rw [← hkey] at hstem
    exact ⟨segment.id, parseStem_key hstem⟩
  obtain ⟨hfrom, hinto⟩ := mem_of_except_mapM hids
  have hmem (id : SegmentId) : id ∈ ids ↔ id ∈ store.files.map Segment.id := by
    rw [List.mem_map]
    constructor
    · intro hid
      obtain ⟨stem, hmem, hok⟩ := hfrom id hid
      obtain ⟨name, hname, hstem⟩ := List.mem_filterMap.mp hmem
      obtain ⟨segment, hsegment, hkey⟩ := h.segment_of_name hname hstem
      rw [← hkey] at hstem
      exact ⟨segment, hsegment, Except.ok.inj ((parseStem_key hstem).symm.trans hok)⟩
    · rintro ⟨segment, hsegment, rfl⟩
      obtain ⟨content, hcontent, -⟩ := h.stored segment hsegment
      obtain ⟨stem, hstem, -⟩ := segmentStem_key segment.id
      have hkey : segmentKey segment.id ∈ directory.keys := Std.ExtTreeMap.mem_keys.mpr
        (Std.ExtTreeMap.mem_iff_isSome_getElem?.mpr (Option.isSome_of_mem hcontent))
      obtain ⟨id, hid, hok⟩ := hinto stem (List.mem_filterMap.mpr ⟨_, hkey, hstem⟩)
      rwa [← Except.ok.inj ((parseStem_key hstem).symm.trans hok)] at hid
  have hnodup : ids.Nodup := by
    refine pairwise_of_mapM hids (List.pairwise_filterMap.mpr ((nodup_keys directory).imp_of_mem ?_))
    intro left right hleft hright hne stem hstem stem' hstem' first second hfirst hsecond hid
    obtain ⟨segment, -, hkey⟩ := h.segment_of_name hleft hstem
    obtain ⟨segment', -, hkey'⟩ := h.segment_of_name hright hstem'
    rw [← hkey] at hstem
    rw [← hkey'] at hstem'
    have hsame : segment.id = first := Except.ok.inj ((parseStem_key hstem).symm.trans hfirst)
    have hsame' : segment'.id = second := Except.ok.inj ((parseStem_key hstem').symm.trans hsecond)
    rw [hsame] at hkey
    rw [hsame', ← hid] at hkey'
    exact hne (hkey.symm.trans hkey')
  have hperm : ids.Perm (store.files.map Segment.id) :=
    (List.perm_ext_iff_of_nodup hnodup h.distinct).mpr hmem
  have horders : Orders (fun left right : SegmentId => decide (left ≤ right))
      (store.files.map Segment.id) := by
    refine ⟨fun a b c hab hbc => ?_, fun a b => ?_, fun a _ b _ hab hba => ?_⟩
    · exact decide_eq_true ((of_decide_eq_true hab).trans (of_decide_eq_true hbc))
    · simpa using le_total a b
    · exact le_antisymm (of_decide_eq_true hab) (of_decide_eq_true hba)
  rw [listSegmentIds, hids, except_ok_bind, (horders.mono hperm.subset).mergeSort_eq
    (horders.pairwise_mergeSort _) (hperm.trans (List.mergeSort_perm _ _).symm)]
  rfl

end Represents

/-! ### What is written -/

theorem decodeSegment_of_encode {built : BuiltSegment} {bytes : Bytes}
    (h : SegmentFile.encodeSegment built.segment = .ok bytes) (hlength : bytes.length < 2 ^ 63) :
    SegmentFile.decodeSegment bytes = .ok built.segment := by
  obtain ⟨payload, hpayload, h⟩ := except_bind_ok.mp h
  split at h
  · cases h
    rw [Format.length_encode rfl] at hlength
    obtain ⟨-, hsummary⟩ := Segment.fromMutations_summarizes built.built
    have hread := SegmentFile.readSegment_reads hsummary.minSequence_le
      (Segment.nodup_ids built.built) hpayload []
    rw [List.append_nil] at hread
    rw [SegmentFile.decodeSegment, Format.decode_encode rfl (by omega) (if_pos (by omega)),
      except_ok_bind, hread, except_ok_bind]
    rfl
  · cases h

/-- However a publication ends, the segment is there as a whole or not at all. -/
def publishes (segment : Segment) (store : SegmentStore) : Post Directory SegmentError Unit where
  ok := fun _ after => store.exists segment.id = false ∧ Represents after (store.publish segment)
  error := fun _ after => Represents after store ∨
    store.exists segment.id = false ∧ Represents after (store.publish segment)
  crashed := fun after => Represents after store ∨
    store.exists segment.id = false ∧ Represents after (store.publish segment)

theorem publishAtomic_publishes (h : Represents directory store) {segment : Segment}
    {bytes : Bytes} (hnew : store.exists segment.id = false)
    (hbytes : SegmentFile.decodeSegment bytes = .ok segment) :
    (publishAtomic (segmentKey segment.id) bytes).Ensures (publishes segment store) directory := by
  have hmissing : segmentKey segment.id ∉ directory := by
    rw [h.mem_iff, hnew]
    exact Bool.false_ne_true
  refine ensures_getBind ?_
  rw [if_neg hmissing]
  refine ensures_of_aside (removeIfExists_aside SegmentError.backend
    (SameBut.refl (tempKey (segmentKey segment.id)) directory))
    (fun _ _ hsame => .inl (h.sameBut hsame)) (fun _ hsame => .inl (h.sameBut hsame)) ?_
  intro removed hremoved htemp
  exact (replaceFile_replaces SegmentError.backend hremoved htemp bytes).mono
    (fun _ _ hok => ⟨hnew, h.publish hnew hbytes hok⟩)
    (fun _ _ herror => herror.imp h.sameBut fun hnow => ⟨hnew, h.publish hnew hbytes hnow⟩)
    fun _ hcrashed => hcrashed.imp h.sameBut fun hnow => ⟨hnew, h.publish hnew hbytes hnow⟩

theorem publish_publishes (h : Represents directory store) (built : BuiltSegment) :
    (publish built.segment).Ensures (publishes built.segment store) directory := by
  refine ensures_getBind ?_
  by_cases hmem : segmentKey built.segment.id ∈ directory
  · rw [if_pos hmem]
    exact ensures_throw (.inl h)
  · rw [if_neg hmem]
    have hnew : store.exists built.segment.id = false := by
      rwa [← Bool.not_eq_true, ← h.mem_iff]
    refine ensures_bind (ensures_lift (fun bytes hbytes => ?_) fun _ _ => .inl h)
    refine ensures_bind ?_
    unfold allocate
    by_cases hlength : bytes.length < 2 ^ 63
    · rw [if_pos hlength]
      exact ensures_pure (publishAtomic_publishes h hnew (decodeSegment_of_encode hbytes hlength))
    · rw [if_neg hlength]
      exact fun _ => .inl h

/-- However a deletion ends, the segment is gone as a whole or not at all. -/
def deletes (id : SegmentId) (store : SegmentStore) : Post Directory SegmentError Bool where
  ok := fun found after => found = store.exists id ∧ Represents after (store.deleteSegment id)
  error := fun _ after => Represents after store ∨ Represents after (store.deleteSegment id)
  crashed := fun after => Represents after store ∨ Represents after (store.deleteSegment id)

theorem deleteSegment_absent {id : SegmentId} (h : store.exists id = false) :
    store.deleteSegment id = store := by
  rw [SegmentStore.exists, List.any_eq_false] at h
  rw [SegmentStore.deleteSegment, List.filter_eq_self.mpr]
  exact fun segment hsegment => decide_eq_true fun hid => h segment hsegment (decide_eq_true hid)

theorem deleteSegment_deletes (h : Represents directory store) (id : SegmentId) :
    (deleteSegment id).Ensures (deletes id store) directory := by
  refine ensures_getBind ?_
  by_cases hmem : segmentKey id ∈ directory
  · rw [if_pos hmem]
    have hgone := h.deleteSegment id
    refine ensures_bind (ensures_durable ?_ (.inl h) (.inr hgone) (.inl h) (.inr hgone))
    refine ensures_bind (ensures_attempt ?_ (.inr hgone) (.inr hgone))
    exact ensures_pure ⟨(h.mem_iff.mp hmem).symm, hgone⟩
  · rw [if_neg hmem]
    have habsent : store.exists id = false := by
      rwa [← Bool.not_eq_true, ← h.mem_iff]
    refine ensures_pure ⟨habsent.symm, ?_⟩
    rwa [deleteSegment_absent habsent]

/-- What a crash left aside keeps no publication from its end. -/
theorem publish_returns (h : Represents directory store) {built : BuiltSegment} {bytes : Bytes}
    (hnew : store.exists built.segment.id = false)
    (hbytes : SegmentFile.encodeSegment built.segment = .ok bytes)
    (hlength : bytes.length < 2 ^ 63) :
    ∃ after, (publish built.segment).Returns directory () after ∧
      Represents after (store.publish built.segment) := by
  have hmissing : segmentKey built.segment.id ∉ directory := by
    rw [h.mem_iff, hnew]
    exact Bool.false_ne_true
  obtain ⟨removed, hremove, hremoved, htemp⟩ := returns_removeIfExists SegmentError.backend
    (tempKey (segmentKey built.segment.id)) directory
  obtain ⟨after, hreplace, hreplaced⟩ :=
    returns_replaceFile SegmentError.backend hremoved htemp bytes
  refine ⟨after, returns_getBind ?_,
    h.publish hnew (decodeSegment_of_encode hbytes hlength) hreplaced⟩
  rw [if_neg hmissing]
  have hallocate : (allocate bytes).Returns directory () directory := by
    rw [allocate, if_pos hlength]
    exact returns_pure
  refine returns_bind (returns_lift hbytes) (returns_bind hallocate (returns_getBind ?_))
  rw [if_neg hmissing]
  exact returns_bind hremove hreplace

end Represents

/-! ### Runs -/

inductive Call where
  | publish (built : BuiltSegment)
  | deleteSegment (id : SegmentId)

/-- What a call has returned: whether it found a file to delete, nothing if it did not return. -/
def returned {α : Type} (found : α → Bool) : Ending SegmentError α → Option Bool
  | .ok value => some (found value)
  | _ => none

def call (directory : Directory) (faults : List Fault) : Call → Option Bool × Directory
  | .publish built =>
    let (ending, world) := (publish built.segment).run directory faults
    (returned (fun _ => true) ending, world.state)
  | .deleteSegment id =>
    let (ending, world) := (deleteSegment id).run directory faults
    (returned (fun found => found) ending, world.state)

/-- Calls one after the other, each under faults of its own, and what they returned. -/
def calls : Directory → List (Call × List Fault) → Directory × List (Call × Option Bool)
  | directory, [] => (directory, [])
  | directory, (request, faults) :: rest =>
    let (result, next) := call directory faults request
    let (after, results) := calls next rest
    (after, (request, result) :: results)

/-- A call as one step: it has all of its effect, or none and has not returned. -/
inductive Atomic (store : SegmentStore) : Call → Option Bool → SegmentStore → Prop
  | failed {request : Call} : Atomic store request none store
  | published {built : BuiltSegment} {result : Option Bool}
      (new : store.exists built.segment.id = false) (found : result = none ∨ result = some true) :
      Atomic store (.publish built) result (store.publish built.segment)
  | deleted {id : SegmentId} {result : Option Bool}
      (found : result = none ∨ result = some (store.exists id)) :
      Atomic store (.deleteSegment id) result (store.deleteSegment id)

inductive Atomics : SegmentStore → List (Call × Option Bool) → SegmentStore → Prop
  | nil {store : SegmentStore} : Atomics store [] store
  | cons {store next after : SegmentStore} {request : Call} {result : Option Bool}
      {results : List (Call × Option Bool)} (head : Atomic store request result next)
      (rest : Atomics next results after) : Atomics store ((request, result) :: results) after

theorem call_atomic {directory : Directory} {store : SegmentStore} (h : Represents directory store)
    (faults : List Fault) (request : Call) :
    ∃ next, Atomic store request (call directory faults request).1 next ∧
      Represents (call directory faults request).2 next := by
  cases request with
  | publish built =>
    have hpublish := publish_publishes h built faults
    rw [call]
    generalize (publish built.segment).run directory faults = result at hpublish ⊢
    obtain ⟨ending, world⟩ := result
    cases ending with
    | ok value => exact ⟨_, .published hpublish.1 (.inr rfl), hpublish.2⟩
    | error error =>
      obtain hold | ⟨hnew, hafter⟩ := hpublish
      · exact ⟨_, .failed, hold⟩
      · exact ⟨_, .published hnew (.inl rfl), hafter⟩
    | crashed =>
      obtain hold | ⟨hnew, hafter⟩ := hpublish
      · exact ⟨_, .failed, hold⟩
      · exact ⟨_, .published hnew (.inl rfl), hafter⟩
  | deleteSegment id =>
    have hdelete := deleteSegment_deletes h id faults
    rw [call]
    generalize (deleteSegment id).run directory faults = result at hdelete ⊢
    obtain ⟨ending, world⟩ := result
    cases ending with
    | ok found => exact ⟨_, .deleted (.inr (congrArg some hdelete.1)), hdelete.2⟩
    | error error =>
      obtain hold | hafter := hdelete
      · exact ⟨_, .failed, hold⟩
      · exact ⟨_, .deleted (.inl rfl), hafter⟩
    | crashed =>
      obtain hold | hafter := hdelete
      · exact ⟨_, .failed, hold⟩
      · exact ⟨_, .deleted (.inl rfl), hafter⟩

theorem calls_atomics {directory : Directory} {store : SegmentStore}
    (requests : List (Call × List Fault)) (h : Represents directory store) :
    ∃ after, Atomics store (calls directory requests).2 after ∧
      Represents (calls directory requests).1 after := by
  induction requests generalizing directory store with
  | nil => exact ⟨store, .nil, h⟩
  | cons head rest ih =>
    obtain ⟨next, hhead, hnext⟩ := call_atomic h head.2 head.1
    obtain ⟨after, hrest, hafter⟩ := ih hnext
    exact ⟨after, .cons hhead hrest, hafter⟩

/-- Whatever fails or crashes, the directory is read as the store that takes every call as one
step, and a segment that is new to it can be published without faults. -/
theorem calls_refine (requests : List (Call × List Fault)) :
    ∃ store, Atomics ⟨[]⟩ (calls ∅ requests).2 store ∧
      discover (calls ∅ requests).1 = .ok store.discover ∧
      listSegmentIds (calls ∅ requests).1 = .ok store.listSegmentIds ∧
      (∀ id, openSegment (calls ∅ requests).1 id = store.openSegment id) ∧
      ∀ (built : BuiltSegment) (bytes : Bytes), store.exists built.segment.id = false →
        SegmentFile.encodeSegment built.segment = .ok bytes → bytes.length < 2 ^ 63 →
        ∃ after, (publish built.segment).Returns (calls ∅ requests).1 () after ∧
          discover after = .ok (store.publish built.segment).discover := by
  obtain ⟨store, hcalls, hstore⟩ := calls_atomics requests represents_empty
  refine ⟨store, hcalls, hstore.discover_eq, hstore.listSegmentIds_eq, hstore.openSegment_eq, ?_⟩
  intro built bytes hnew hbytes hlength
  obtain ⟨after, hreturns, hafter⟩ := publish_returns hstore hnew hbytes hlength
  exact ⟨after, hreturns, hafter.discover_eq⟩

end SegmentFiles

end Ketebe
