import CfdiVault.LiveRequestState

/-!
# Updates of the state file

An upsert reads the whole file, replaces one record and writes the whole file again, through a
temporary file that is moved over the old one.  Two things could go wrong with the records it
does not mean to touch: they are decoded and encoded on the way, and the write may stop half way.

The first does not happen, because reading is a retraction of writing: what was read once is
`Normal` and survives every further round (`normalise_idem`), so an upsert is a keyed update of
the list (`listLive_insert`) and a sequence of upserts holds the last write under every reference
(`RunsTo.holds`).  The second does not happen, because the old content is only ever replaced by
the move, which is the last thing that can fail (`upsertOn_error`).

The host is asked once for each thing it can refuse: reading the file, making the directory,
writing the temporary file, moving it, and removing it again.
-/

namespace CfdiVault

namespace LiveRequestState

/-! ## One round of writing and reading -/

/-- `from_document(to_document(record))`. -/
def normalise (record : LiveMetadataRequestRecord) : Except StateFault LiveMetadataRequestRecord :=
  fromDocument record.toDocument

section Normalise

variable {record r s : LiveMetadataRequestRecord} {records : List LiveMetadataRequestRecord}

theorem normalise_of_normal (h : Normal r) : normalise r = .ok r := fromDocument_toDocument h

/-- A round of writing and reading changes nothing the second time. -/
theorem normalise_idem (h : normalise record = .ok r) : normalise r = .ok r :=
  normalise_of_normal (fromDocument_normal h)

/-- What a document says under two of its keys. -/
theorem fromDocument_fields {ms : List (String × Json)} (h : fromDocument ms = .ok r) :
    requiredStr ms "requestRef" = .ok r.requestRef ∧ requiredStr ms "createdAt" = .ok r.createdAt := by
  obtain ⟨times, htimes, h⟩ := Checked.bind_eq_ok.mp h
  have hcreated : requiredStr ms "createdAt" = .ok times.createdAt := by
    obtain ⟨createdAt, hcreated, htimes⟩ := Checked.bind_eq_ok.mp htimes
    iterate 6 obtain ⟨_, -, htimes⟩ := Checked.bind_eq_ok.mp htimes
    rw [← Checked.pure_eq_ok.mp htimes]
    exact hcreated
  obtain ⟨requestRef, href, h⟩ := Checked.bind_eq_ok.mp h
  iterate 23 obtain ⟨_, -, h⟩ := Checked.bind_eq_ok.mp h
  rw [← Checked.pure_eq_ok.mp h]
  exact ⟨href, hcreated⟩

/-- The reference and the creation time of a record are read as they were written. -/
theorem normalise_fields (h : normalise record = .ok r) :
    r.requestRef = record.requestRef ∧ r.createdAt = record.createdAt := by
  obtain ⟨href, hcreated⟩ := fromDocument_fields h
  have href' : requiredStr record.toDocument "requestRef" = .ok record.requestRef := rfl
  have hcreated' : requiredStr record.toDocument "createdAt" = .ok record.createdAt := rfl
  exact ⟨Except.ok.inj (href.symm.trans href'), Except.ok.inj (hcreated.symm.trans hcreated')⟩

/-- Records that differ only by normalisation are sorted alike. -/
theorem sortByCreation_map {f : LiveMetadataRequestRecord → LiveMetadataRequestRecord}
    (h : ∀ s ∈ records, (f s).createdAt = s.createdAt) :
    (sortByCreation records).map f = sortByCreation (records.map f) := by
  refine List.map_insertionSort _ _ f records fun a ha b hb => ?_
  rw [h a ha, h b hb]

/-- What the file lists after it was written: every record as it is read again. -/
theorem listLive_written {f : LiveMetadataRequestRecord → LiveMetadataRequestRecord}
    (h : ∀ s ∈ records, normalise s = .ok (f s)) :
    listLive (writeState records) = .ok (records.map f) := by
  rw [listLive_writeState_eq]
  exact Checked.mapM_map' h

/-- A written file can be listed only if every record can be read again. -/
theorem normalise_of_listed {rs : List LiveMetadataRequestRecord}
    (h : listLive (writeState records) = .ok rs) (hs : s ∈ records) : ∃ r, normalise s = .ok r := by
  rw [listLive_writeState_eq] at h
  exact Checked.mapM_defined h (List.mem_map_of_mem hs)

/-- An upsert is a keyed update with the record as it is read again. -/
theorem listLive_insert (h : ∀ s ∈ records, Normal s) (hrecord : normalise record = .ok r) :
    listLive (writeState (insertRecord record records)) = .ok (insertRecord r records) := by
  obtain ⟨href, hcreated⟩ := normalise_fields hrecord
  obtain ⟨f, hf⟩ : ∃ f : LiveMetadataRequestRecord → LiveMetadataRequestRecord,
      f = fun s => if s.requestRef = record.requestRef then r else s := ⟨_, rfl⟩
  have hkept : ∀ s ∈ Keyed.without (·.requestRef) record.requestRef records, f s = s := by
    intro s hs
    rw [hf]
    exact if_neg (Keyed.mem_without.mp hs).2
  have hnew : f record = r := by
    rw [hf]
    exact if_pos rfl
  have hnormal : ∀ s ∈ insertRecord record records, normalise s = .ok (f s) := by
    intro s hs
    rcases mem_insertRecord.mp hs with rfl | ⟨hold, hne⟩
    · rw [hnew]
      exact hrecord
    · rw [hkept s (Keyed.mem_without.mpr ⟨hold, hne⟩)]
      exact normalise_of_normal (h s hold)
  have hsorted : (insertRecord record records).map f = insertRecord r records := by
    have hmap : (Keyed.without (·.requestRef) record.requestRef records ++ [record]).map f =
        Keyed.without (·.requestRef) record.requestRef records ++ [r] := by
      rw [List.map_append, List.map_singleton, hnew, List.map_congr_left hkept, List.map_id']
    rw [insertRecord, insertRecord, Keyed.upsert, Keyed.upsert, sortByCreation_map, hmap, href]
    intro s hs
    rcases List.mem_append.mp hs with hs | hs
    · rw [hkept s hs]
    · rw [List.mem_singleton.mp hs, hnew, hcreated]
  rw [listLive_written hnormal, hsorted]

end Normalise

/-! ## The disk -/

/-- The text of the state file: how records are rendered, and what a content reads as.  What was
rendered reads as the document that was rendered. -/
structure StateText (Content : Type) where
  read : Content → StateFile
  write : List LiveMetadataRequestRecord → Content
  read_write : ∀ records, read (write records) = writeState records

/-- Contents that are kept as the documents they read as. -/
def StateText.document : StateText StateFile := ⟨id, writeState, fun _ => rfl⟩

/-- The state file and the temporary file next to it. -/
structure StateDisk (Content : Type) where
  target : Option Content
  temporary : Option Content

/-- How the host refuses something: with an `OSError`, or by raising something else. -/
inductive Refusal where
  | osError
  | raised (fault : StateFault)

/-- What the host refuses during one upsert.  A write that is refused may leave something in the
temporary file. -/
structure WriteHost (Content : Type) where
  read : Option Refusal := none
  mkdir : Option Refusal := none
  writeText : Option (Refusal × Option Content) := none
  replace : Option Refusal := none
  unlink : Option Refusal := none

/-- The fault of a refusal that is turned into an error of the state. -/
def Refusal.fault : Refusal → StateFault
  | .osError => .liveRequest "request-state-io-error"
  | .raised fault => fault

section Disk

variable {Content : Type} (text : StateText Content) (host : WriteHost Content)

/-- What is found at the path of the state file. -/
def StateDisk.file (disk : StateDisk Content) : StateFile :=
  match disk.target with
  | none => .absent
  | some content => text.read content

/-- The records of the state file, as far as the host lets them be read. -/
def listOn (disk : StateDisk Content) : Except StateFault (List LiveMetadataRequestRecord) :=
  match host.read with
  | some refusal => .error refusal.fault
  | none => listLive (disk.file text)

/-- The handler of `_write_state`: an `OSError` removes the temporary file, if it can. -/
def giveUp (refusal : Refusal) (disk : StateDisk Content) : Except StateFault Unit × StateDisk Content :=
  match refusal with
  | .raised fault => (.error fault, disk)
  | .osError =>
      match host.unlink with
      | none => (.error Refusal.osError.fault, { disk with temporary := none })
      | some .osError => (.error Refusal.osError.fault, disk)
      | some (.raised fault) => (.error fault, disk)

/-- `_write_state` -/
def writeStateOn (records : List LiveMetadataRequestRecord) (disk : StateDisk Content) :
    Except StateFault Unit × StateDisk Content :=
  match host.mkdir with
  | some refusal => giveUp host refusal disk
  | none =>
      match host.writeText with
      | some (refusal, left) => giveUp host refusal { disk with temporary := left }
      | none =>
          match host.replace with
          | some refusal => giveUp host refusal { disk with temporary := some (text.write records) }
          | none => (.ok (), { target := some (text.write records), temporary := none })

/-- `upsert_live_metadata_request` -/
def upsertOn (record : LiveMetadataRequestRecord) (disk : StateDisk Content) :
    Except StateFault Unit × StateDisk Content :=
  match listOn text host disk with
  | .error fault => (.error fault, disk)
  | .ok records => writeStateOn text host (insertRecord record records) disk

variable {text host} {disk disk' : StateDisk Content} {record r : LiveMetadataRequestRecord}
variable {records rs : List LiveMetadataRequestRecord} {fault : StateFault}

/-- Giving up reports a fault and leaves the state file alone. -/
theorem giveUp_spec {refusal : Refusal} :
    (∃ fault, (giveUp host refusal disk).1 = .error fault) ∧ (giveUp host refusal disk).2.target = disk.target := by
  cases refusal with
  | raised fault => exact ⟨⟨fault, rfl⟩, rfl⟩
  | osError =>
      unfold giveUp
      rcases host.unlink with _ | _ | fault
      · exact ⟨⟨_, rfl⟩, rfl⟩
      · exact ⟨⟨_, rfl⟩, rfl⟩
      · exact ⟨⟨fault, rfl⟩, rfl⟩

/-- A write moves the new content into place, or reports a fault and leaves the old one. -/
theorem writeStateOn_cases :
    writeStateOn text host records disk = (.ok (), ⟨some (text.write records), none⟩) ∨
    (∃ fault, (writeStateOn text host records disk).1 = .error fault) ∧
      (writeStateOn text host records disk).2.target = disk.target := by
  unfold writeStateOn
  rcases host.mkdir with _ | refusal
  · rcases host.writeText with _ | ⟨refusal, left⟩
    · rcases host.replace with _ | refusal
      · exact .inl rfl
      · exact .inr giveUp_spec
    · exact .inr giveUp_spec
  · exact .inr giveUp_spec

theorem listOn_ok (h : listOn text host disk = .ok rs) : listLive (disk.file text) = .ok rs := by
  revert h
  unfold listOn
  rcases host.read with _ | refusal
  · exact id
  · intro h
    cases h

/-- An upsert that returns has written the updated list. -/
theorem upsertOn_ok (h : (upsertOn text host record disk).1 = .ok ()) :
    ∃ rs, listLive (disk.file text) = .ok rs ∧
      (upsertOn text host record disk).2.file text = writeState (insertRecord record rs) := by
  unfold upsertOn at h ⊢
  cases hlist : listOn text host disk with
  | error fault =>
      rw [hlist] at h
      cases h
  | ok rs =>
      rw [hlist] at h
      refine ⟨rs, listOn_ok hlist, ?_⟩
      dsimp only at h ⊢
      rcases @writeStateOn_cases _ text host disk (insertRecord record rs) with hdone | ⟨⟨fault, hfault⟩, -⟩
      · rw [hdone]
        exact text.read_write _
      · rw [hfault] at h
        cases h

/-- An upsert that returns is the upsert of the file as it is read. -/
theorem upsertOn_upsertLive (h : (upsertOn text host record disk).1 = .ok ()) :
    upsertLive record (disk.file text) = .ok ((upsertOn text host record disk).2.file text) := by
  obtain ⟨rs, hlist, hfile⟩ := upsertOn_ok h
  rw [upsertLive_ok hlist, hfile]

/-- An upsert that raises leaves the state file as it was. -/
theorem upsertOn_error (h : (upsertOn text host record disk).1 = .error fault) :
    (upsertOn text host record disk).2.target = disk.target := by
  unfold upsertOn at h ⊢
  cases hlist : listOn text host disk with
  | error fault => rfl
  | ok rs =>
      rw [hlist] at h
      dsimp only at h ⊢
      rcases @writeStateOn_cases _ text host disk (insertRecord record rs) with hdone | ⟨-, hsame⟩
      · rw [hdone] at h
        cases h
      · exact hsame

/-- A host that refuses nothing lets every readable file be updated. -/
theorem upsertOn_granted (h : listLive (disk.file text) = .ok rs) :
    (upsertOn text {} record disk).1 = .ok () := by
  have hlist : listOn text {} disk = .ok rs := h
  rw [upsertOn, hlist]
  rfl

/-- After an upsert the file lists the record as it is read again, and the others as before. -/
theorem upsertOn_listed (hlist : listLive (disk.file text) = .ok rs) (hrecord : normalise record = .ok r)
    (h : (upsertOn text host record disk).1 = .ok ()) :
    listLive ((upsertOn text host record disk).2.file text) = .ok (insertRecord r rs) := by
  obtain ⟨rs', hlist', hfile⟩ := upsertOn_ok h
  cases hlist.symm.trans hlist'
  rw [hfile]
  exact listLive_insert (listLive_normal hlist) hrecord

end Disk

/-! ## Sequences of upserts -/

section Sequences

variable {Content : Type} {text : StateText Content}

/-- The disk after a sequence of upserts, and the records of those that returned. -/
def runUpserts (text : StateText Content) :
    List (WriteHost Content × LiveMetadataRequestRecord) → StateDisk Content →
      StateDisk Content × List LiveMetadataRequestRecord
  | [], disk => (disk, [])
  | (host, record) :: rest, disk =>
      let step := upsertOn text host record disk
      let later := runUpserts text rest step.2
      match step.1 with
      | .ok () => (later.1, record :: later.2)
      | .error _ => later

variable {ops rest : List (WriteHost Content × LiveMetadataRequestRecord)} {disk : StateDisk Content}
variable {host : WriteHost Content} {record r : LiveMetadataRequestRecord}
variable {writes normals rs : List LiveMetadataRequestRecord} {fault : StateFault}

theorem runUpserts_ok (h : (upsertOn text host record disk).1 = .ok ()) :
    runUpserts text ((host, record) :: rest) disk =
      ((runUpserts text rest (upsertOn text host record disk).2).1,
        record :: (runUpserts text rest (upsertOn text host record disk).2).2) := by
  rw [runUpserts, h]

theorem runUpserts_error (h : (upsertOn text host record disk).1 = .error fault) :
    runUpserts text ((host, record) :: rest) disk =
      runUpserts text rest (upsertOn text host record disk).2 := by
  rw [runUpserts, h]

/-- The file lists the last write under every reference, as it is read again. -/
def ListsLastWrites (text : StateText Content) (disk : StateDisk Content)
    (writes : List LiveMetadataRequestRecord) : Prop :=
  ∀ rs, listLive (disk.file text) = .ok rs →
    ∃ normals, writes.mapM normalise = .ok normals ∧ Keyed.Holds (·.requestRef) normals rs

theorem mapM_snoc (h : writes.mapM normalise = .ok normals) (hrecord : normalise record = .ok r) :
    (writes ++ [record]).mapM normalise = .ok (normals ++ [r]) := by
  rw [List.mapM_append, h, Checked.ok_bind, List.mapM_cons, hrecord, Checked.ok_bind]
  rfl

theorem file_of_target {disk' : StateDisk Content} (h : disk'.target = disk.target) :
    disk'.file text = disk.file text := by
  rw [StateDisk.file, StateDisk.file, h]

theorem ListsLastWrites.absent (h : disk.target = none) : ListsLastWrites text disk [] := by
  intro rs hlist
  rw [StateDisk.file, h] at hlist
  obtain rfl := Except.ok.inj hlist
  exact ⟨[], rfl, .nil⟩

/-- One upsert moves the file on to the last writes including its own. -/
theorem ListsLastWrites.upsert (h : ListsLastWrites text disk writes)
    (hok : (upsertOn text host record disk).1 = .ok ()) :
    ListsLastWrites text (upsertOn text host record disk).2 (writes ++ [record]) := by
  intro rs' hlist'
  obtain ⟨rs, hlist, hfile⟩ := upsertOn_ok hok
  obtain ⟨normals, hnormals, hholds⟩ := h rs hlist
  have hmem : record ∈ insertRecord record rs := mem_insertRecord.mpr (.inl rfl)
  rw [hfile] at hlist'
  obtain ⟨r, hr⟩ := normalise_of_listed hlist' hmem
  rw [listLive_insert (listLive_normal hlist) hr] at hlist'
  obtain rfl := Except.ok.inj hlist'
  exact ⟨normals ++ [r], mapM_snoc hnormals hr, hholds.upsert sortByCreation_perm⟩

/-- A sequence of upserts moves the file on to the last writes. -/
theorem ListsLastWrites.run (h : ListsLastWrites text disk writes) :
    ListsLastWrites text (runUpserts text ops disk).1 (writes ++ (runUpserts text ops disk).2) := by
  induction ops generalizing disk writes with
  | nil =>
      rw [runUpserts, List.append_nil]
      exact h
  | cons op rest ih =>
      obtain ⟨host, record⟩ := op
      cases hresult : (upsertOn text host record disk).1 with
      | ok done =>
          rw [runUpserts_ok hresult]
          have hnext := ih (h.upsert hresult)
          rwa [List.append_assoc] at hnext
      | error fault =>
          rw [runUpserts_error hresult]
          refine ih fun rs hlist => ?_
          rw [file_of_target (upsertOn_error hresult)] at hlist
          exact h rs hlist

/-- Records that can be read again keep the file readable. -/
theorem runUpserts_listed (hrecords : ∀ op ∈ ops, ∃ r, normalise op.2 = .ok r)
    (hlist : listLive (disk.file text) = .ok rs) :
    ∃ rs', listLive ((runUpserts text ops disk).1.file text) = .ok rs' := by
  induction ops generalizing disk rs with
  | nil => exact ⟨rs, hlist⟩
  | cons op rest ih =>
      obtain ⟨host, record⟩ := op
      obtain ⟨r, hr⟩ := hrecords _ List.mem_cons_self
      have hrest : ∀ op ∈ rest, ∃ r, normalise op.2 = .ok r :=
        fun op hop => hrecords op (List.mem_cons_of_mem _ hop)
      cases hresult : (upsertOn text host record disk).1 with
      | ok done =>
          rw [runUpserts_ok hresult]
          exact ih hrest (upsertOn_listed hlist hr hresult)
      | error fault =>
          rw [runUpserts_error hresult]
          refine @ih _ rs hrest ?_
          rw [file_of_target (upsertOn_error hresult)]
          exact hlist

end Sequences

/-! ## The keyed update -/

/-- The state file as a map from references to records, under upserts that the host may refuse. -/
structure KeyedUpdates {Content : Type} (text : StateText Content) : Prop where
  /-- an upsert that returns replaces the record of its reference, and no other -/
  single : ∀ host disk record rs r, listLive (disk.file text) = .ok rs → normalise record = .ok r →
    (upsertOn text host record disk).1 = .ok () →
      ∃ rs', listLive ((upsertOn text host record disk).2.file text) = .ok rs' ∧
        Keyed.Sole (·.requestRef) record.requestRef r rs' ∧
        (rs'.filter fun s => s.requestRef ≠ record.requestRef).Perm
          (rs.filter fun s => s.requestRef ≠ record.requestRef)
  /-- an upsert that the host does not refuse returns -/
  granted : ∀ disk record rs, listLive (disk.file text) = .ok rs →
    (upsertOn text {} record disk).1 = .ok ()
  /-- from an absent file on, the file lists the last write under each reference -/
  sequence : ∀ ops disk, disk.target = none →
    ListsLastWrites text (runUpserts text ops disk).1 (runUpserts text ops disk).2 ∧
      ((∀ op ∈ ops, ∃ r, normalise op.2 = .ok r) →
        ∃ rs, listLive ((runUpserts text ops disk).1.file text) = .ok rs)
  /-- a second round of writing and reading changes nothing -/
  idempotent : ∀ record r, normalise record = .ok r → normalise r = .ok r
  /-- a file that cannot be decoded is not written -/
  undecoded : ∀ host disk record fault, listOn text host disk = .error fault →
    upsertOn text host record disk = (.error fault, disk)
  /-- whatever fails, the content of the file is what it was -/
  unwritten : ∀ host disk record fault, (upsertOn text host record disk).1 = .error fault →
    (upsertOn text host record disk).2.target = disk.target

theorem insertRecord_others {r : LiveMetadataRequestRecord} {rs : List LiveMetadataRequestRecord} :
    ((insertRecord r rs).filter fun s => s.requestRef ≠ r.requestRef).Perm
      (rs.filter fun s => s.requestRef ≠ r.requestRef) := by
  have hperm : (insertRecord r rs).Perm (Keyed.without (·.requestRef) r.requestRef rs ++ [r]) :=
    sortByCreation_perm _
  refine (hperm.filter _).trans ?_
  rw [List.filter_append, Keyed.without, List.filter_filter]
  simp

/-- An upsert is a keyed update of the state file. -/
theorem upserts_keyed {Content : Type} (text : StateText Content) : KeyedUpdates text where
  single := by
    intro host disk record rs r hlist hrecord hok
    obtain ⟨href, -⟩ := normalise_fields hrecord
    refine ⟨_, upsertOn_listed hlist hrecord hok, ?_, ?_⟩
    · rw [← href]
      exact Keyed.sole_upsert_self sortByCreation_perm
    · rw [← href]
      exact insertRecord_others
  granted := fun _ _ _ hlist => upsertOn_granted hlist
  sequence := by
    intro ops disk habsent
    refine ⟨(ListsLastWrites.absent habsent).run, fun hrecords => ?_⟩
    have hempty : listLive (disk.file text) = .ok [] := by
      rw [StateDisk.file, habsent]
      rfl
    exact runUpserts_listed hrecords hempty
  idempotent := fun _ _ h => normalise_idem h
  undecoded := by
    intro host disk record fault h
    rw [upsertOn, h]
  unwritten := fun _ _ _ _ h => upsertOn_error h

end LiveRequestState

end CfdiVault
