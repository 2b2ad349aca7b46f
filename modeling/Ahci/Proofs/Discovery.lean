import Ahci.Bench.Rack
import Ahci.Proofs.Backplane
import Ahci.Proofs.PortIndependence

/-!
The devices that are found on the ports of a backplane. The ports that are implemented are visited
in ascending order, and no other port is touched. Each of them yields what it would yield alone,
whatever became of the ports before it, and a device is named by how many of its kind were found
before. So the names of each kind are numbered from zero on without a gap.
-/

namespace Ahci

variable {σ α τ : Type}

/-! Names. -/

/-- The name of the device of a kind that comes behind so many of its kind: the word for its kind
and that number. -/
def diskName (optical : Bool) (place : Nat) : String :=
  (if optical then "cd" else "hd") ++ toString place

/-- A name tells the kind and the place, so no two devices of a walk share one. -/
theorem diskName_inj {optical other : Bool} {place later : Nat}
    (hsame : diskName optical place = diskName other later) : optical = other ∧ place = later := by
  have hletters := congrArg String.toList hsame
  have hkind : optical = other := by
    cases optical <;> cases other <;> simp [diskName] at hletters ⊢
  subst hkind
  have hdigits : Nat.toDigits 10 place = Nat.toDigits 10 later := by
    rw [diskName, diskName, String.append_right_inj, Nat.toString_eq_ofList_toDigits,
      Nat.toString_eq_ofList_toDigits] at hsame
    exact String.ofList_injective hsame
  refine ⟨rfl, ?_⟩
  rw [← Nat.ofDigitChars_ten_toDigits (n := place), hdigits, Nat.ofDigitChars_ten_toDigits]

/-- A device with the engine of its port, but without its name. -/
def NamedDisk.device (named : NamedDisk) : Disk × Engine :=
  (named.disk, named.engine)

/-- The devices of a kind, in the order in which they were found. -/
def ofKind (optical : Bool) (disks : List NamedDisk) : List NamedDisk :=
  disks.filter fun named => named.disk.isOptical == optical

/-- The devices of each kind are numbered in their order, from zero on. -/
def Numbered (disks : List NamedDisk) : Prop :=
  ∀ optical, (ofKind optical disks).map NamedDisk.name =
    (List.range (ofKind optical disks).length).map (diskName optical)

theorem Numbered.exists_name {disks : List NamedDisk} (hnumbered : Numbered disks)
    {named : NamedDisk} (hmember : named ∈ disks) :
    ∃ place < (ofKind named.disk.isOptical disks).length,
      named.name = diskName named.disk.isOptical place := by
  have hwithin : named.name ∈ (ofKind named.disk.isOptical disks).map NamedDisk.name :=
    List.mem_map_of_mem (List.mem_filter.2 ⟨hmember, beq_self_eq_true _⟩)
  rw [hnumbered] at hwithin
  obtain ⟨place, hearly, hname⟩ := List.mem_map.1 hwithin
  exact ⟨place, List.mem_range.1 hearly, hname.symm⟩

/-- The names are told by the kinds alone: a device is named by how many of its kind come before
it. -/
theorem Numbered.names {disks : List NamedDisk} (hnumbered : Numbered disks) :
    disks.map NamedDisk.name = (disks.map (·.disk.isOptical)).mapIdx fun place optical =>
      diskName optical (((disks.map (·.disk.isOptical)).take place).count optical) := by
  refine List.ext_getElem (by simp) fun place hearly _ => ?_
  rw [List.length_map] at hearly
  rw [List.getElem_map, List.getElem_mapIdx, List.getElem_map]
  obtain ⟨named, hhead⟩ : ∃ named, disks[place] = named := ⟨_, rfl⟩
  have hparts : ofKind named.disk.isOptical disks =
      ofKind named.disk.isOptical (disks.take place) ++
      named :: ofKind named.disk.isOptical (disks.drop (place + 1)) := by
    conv_lhs => rw [← List.take_append_drop place disks, List.drop_eq_getElem_cons hearly,
      hhead]
    rw [ofKind, List.filter_append, List.filter_cons, beq_self_eq_true, if_pos rfl]
    rfl
  have hbefore : ((disks.map (·.disk.isOptical)).take place).count named.disk.isOptical =
      (ofKind named.disk.isOptical (disks.take place)).length := by
    rw [← List.map_take, List.count, List.countP_map, List.countP_eq_length_filter]
    rfl
  have hnames := congrArg (·[(ofKind named.disk.isOptical (disks.take place)).length]?)
    (hnumbered named.disk.isOptical)
  rw [hhead, hbefore]
  simpa [hparts] using hnames

namespace Findings

/-- The devices found so far, in the order in which they were found. -/
def found (findings : Findings) : List NamedDisk :=
  findings.disks.reverse

/-- How many devices of a kind were found. -/
def count (findings : Findings) (optical : Bool) : Nat :=
  if optical then findings.opticalDrives else findings.hardDisks

theorem nextName_eq (findings : Findings) (optical : Bool) :
    findings.nextName optical = diskName optical (findings.count optical) := by
  cases optical <;> rfl

theorem found_add (findings : Findings) (disk : Disk) (engine : Engine) :
    (findings.add disk engine).found =
      findings.found ++ [⟨findings.nextName disk.isOptical, disk, engine⟩] := by
  unfold add found
  split <;> exact List.reverse_cons

theorem count_add (findings : Findings) (disk : Disk) (engine : Engine) (optical : Bool) :
    (findings.add disk engine).count optical =
      findings.count optical + if disk.isOptical = optical then 1 else 0 := by
  unfold add count
  cases disk.isOptical <;> cases optical <;> rfl

/-- What was found so far is counted and numbered by its kind, and no name is given twice. -/
structure Tallied (findings : Findings) : Prop where
  counts : ∀ optical, (ofKind optical findings.found).length = findings.count optical
  numbered : Numbered findings.found
  unique : (findings.found.map NamedDisk.name).Nodup

theorem tallied_none : Tallied {} :=
  ⟨fun optical => by cases optical <;> rfl, fun _ => rfl, List.nodup_nil⟩

/-- What is found next is named by how many of its kind were found before, which keeps names
apart. -/
theorem Tallied.add {findings : Findings} (htallied : findings.Tallied) (disk : Disk)
    (engine : Engine) : (findings.add disk engine).Tallied := by
  let named : NamedDisk := ⟨findings.nextName disk.isOptical, disk, engine⟩
  have hname : named.name = diskName disk.isOptical (findings.count disk.isOptical) :=
    findings.nextName_eq disk.isOptical
  have hgrown (optical : Bool) : ofKind optical (findings.add disk engine).found =
      ofKind optical findings.found ++ if disk.isOptical = optical then [named] else [] := by
    rw [found_add, ofKind, List.filter_append, List.filter_singleton, Bool.cond_eq_ite]
    simp only [beq_iff_eq]
    rfl
  have hcounts (optical : Bool) : (ofKind optical (findings.add disk engine).found).length =
      (findings.add disk engine).count optical := by
    rw [hgrown, List.length_append, htallied.counts, count_add]
    split <;> rfl
  refine ⟨hcounts, fun optical => ?_, ?_⟩
  · rw [hcounts, count_add, hgrown, List.map_append, htallied.numbered, htallied.counts]
    split
    · next hsame =>
      rw [List.range_succ, List.map_append, List.map_singleton, List.map_singleton, hname, hsame]
    · rw [List.map_nil, List.append_nil, Nat.add_zero]
  · rw [found_add, List.map_append]
    refine List.nodup_append.2 ⟨htallied.unique, List.nodup_singleton _, ?_⟩
    intro taken hold new his hsame
    obtain ⟨other, hmember, rfl⟩ := List.mem_map.1 hold
    obtain ⟨place, hearly, hother⟩ := htallied.numbered.exists_name hmember
    rw [List.map_singleton, List.mem_singleton] at his
    obtain ⟨hkind, hlater⟩ := diskName_inj ((hother.symm.trans hsame).trans (his.trans hname))
    rw [htallied.counts, hkind, hlater] at hearly
    exact Nat.lt_irrefl _ hearly

/-- Adds what a port yields, if it yields anything. -/
def addAny (findings : Findings) : Option (Disk × Engine) → Findings
  | none => findings
  | some (disk, engine) => findings.add disk engine

theorem device_addAny (findings : Findings) (device : Option (Disk × Engine)) :
    (findings.addAny device).found.map NamedDisk.device =
      findings.found.map NamedDisk.device ++ device.toList := by
  rcases device with _ | ⟨disk, engine⟩
  · exact (List.append_nil _).symm
  · rw [addAny, found_add, List.map_append]
    rfl

theorem Tallied.addAny {findings : Findings} (htallied : findings.Tallied)
    (device : Option (Disk × Engine)) : (findings.addAny device).Tallied := by
  rcases device with _ | ⟨disk, engine⟩
  · exact htallied
  · exact htallied.add disk engine

end Findings

/-! Visits. -/

/-- One world comes from another by visits to ports, one after another: their windows are asked for
in that order, no register is accessed but theirs and those of the adapter, and all other ports are
left as they were. -/
structure World.Visits (numbers : List Nat) (before after : World (Backplane α τ)) : Prop where
  others : ∀ other ∉ numbers, after.device.ports other = before.device.ports other
  patience : after.patience = before.patience
  accesses : ∃ made, after.accesses = made ++ before.accesses ∧
    made.reverse.filterMap Access.opened? = numbers.map .port ∧
    ∀ access ∈ made, access.window = .hba ∨ ∃ number ∈ numbers, access.window = .port number

namespace World.Visits

variable {numbers more : List Nat} {first second third : World (Backplane α τ)}

theorem refl (world : World (Backplane α τ)) : World.Visits [] world world :=
  ⟨fun _ _ => rfl, rfl, [], rfl, rfl, nofun⟩

theorem trans (hearly : World.Visits numbers first second)
    (hlate : World.Visits more second third) : World.Visits (numbers ++ more) first third := by
  obtain ⟨made, hgrown, hopened, hthere⟩ := hearly.accesses
  obtain ⟨later, hfurther, hreopened, hhead⟩ := hlate.accesses
  refine ⟨fun other houtside => ?_, hlate.patience.trans hearly.patience, later ++ made, ?_, ?_, ?_⟩
  · rw [List.mem_append, not_or] at houtside
    exact (hlate.others other houtside.2).trans (hearly.others other houtside.1)
  · rw [hfurther, hgrown, List.append_assoc]
  · rw [List.reverse_append, List.filterMap_append, hopened, hreopened, List.map_append]
  · intro access hmember
    rcases List.mem_append.1 hmember with hnew | hold
    · refine (hhead access hnew).imp_right ?_
      rintro ⟨number, hvisited, hat⟩
      exact ⟨number, List.mem_append_right _ hvisited, hat⟩
    · refine (hthere access hold).imp_right ?_
      rintro ⟨number, hvisited, hat⟩
      exact ⟨number, List.mem_append_left _ hvisited, hat⟩

theorem noted (hvisits : World.Visits numbers first second) (log : Log) :
    World.Visits numbers first { second with log } :=
  ⟨hvisits.others, hvisits.patience, hvisits.accesses⟩

theorem of_beside {number : Nat}
    (hbeside : World.Beside number
      { first with accesses := .opened (.port number) :: first.accesses } second) :
    World.Visits [number] first second := by
  obtain ⟨made, hgrown, hthere⟩ := hbeside.accesses
  refine ⟨fun other houtside => hbeside.others other (by simpa using houtside), hbeside.patience,
    made ++ [.opened (.port number)], ?_, ?_, ?_⟩
  · rw [hgrown, List.append_assoc]
    rfl
  · have hsilent : made.reverse.filterMap Access.opened? = [] := by
      rw [List.filterMap_eq_nil_iff]
      exact fun access hmember => (hthere access (List.mem_reverse.1 hmember)).2
    rw [List.reverse_append, List.filterMap_append, hsilent]
    rfl
  · intro access hmember
    refine .inr ⟨number, List.mem_singleton_self number, ?_⟩
    rcases List.mem_append.1 hmember with hregister | hasked
    · exact (hthere access hregister).1
    · rw [List.mem_singleton.1 hasked]
      rfl

/-- What is known of the ports that were not visited is still so; it may depend on the patience of
the host, which no visit changes. -/
theorem untouched (Known : Nat → Nat → τ → Prop) (hvisits : World.Visits numbers first second)
    (hapart : ∀ number ∈ more, number ∉ numbers)
    (hknown : ∀ number ∈ more, Known first.patience number (first.device.ports number)) :
    ∀ number ∈ more, Known second.patience number (second.device.ports number) := by
  intro number hmember
  rw [hvisits.patience, hvisits.others number (hapart number hmember)]
  exact hknown number hmember

/-- `untouched` for the ports that are still to be visited behind one. -/
theorem untouched_behind (Known : Nat → Nat → τ → Prop) {number : Nat}
    (hvisit : World.Visits [number] first second) (hnodup : (number :: numbers).Nodup)
    (hknown : ∀ other ∈ number :: numbers,
      Known first.patience other (first.device.ports other)) :
    ∀ other ∈ numbers, Known second.patience other (second.device.ports other) := by
  refine hvisit.untouched Known (fun other hmember => ?_) fun other hmember =>
    hknown other (List.mem_cons_of_mem number hmember)
  rw [List.mem_singleton]
  rintro rfl
  exact (List.nodup_cons.1 hnodup).1 hmember

end World.Visits

/-- A port alone is granted what it is granted among others, from the same allocator. -/
theorem World.exists_allocate_alone [Device α] [Device τ] (number : Nat)
    (world : World (Backplane α τ)) :
    ∃ more text, PortAreas.allocate.exec (Backplane.alone world number [] {}) =
      ((PortAreas.allocate.exec world).1,
        Backplane.alone (PortAreas.allocate.exec world).2 number more text) :=
  (HostM.Counterparts.allocateAreas.goesAs world [] {}).1

theorem World.offers_alone [Device α] [Device τ] (number : Nat) {world : World (Backplane α τ)}
    {grant : Except DriverError PortAreas}
    (hgranted : (PortAreas.allocate.exec world).1 = .ok grant) :
    (Backplane.alone world number [] {}).Offers world.patience (world.device.ports number)
      grant := by
  obtain ⟨_, _, hallocated⟩ := exists_allocate_alone number world
  exact ⟨rfl, rfl, (congrArg Prod.fst hallocated).trans hgranted⟩

/-- Whenever the turn of a port with a device comes on a walk, it is granted what is known of it.
The grants before have an effect on the allocator, so this speaks of the walk up to the port. -/
def PortFamily.GrantedOn [Device α] [Device τ] (family : PortFamily) (adapter : Adapter)
    (config : Config) (numbers : List Nat) (findings : Findings)
    (world : World (Backplane α τ)) : Prop :=
  ∀ early number late, numbers = early ++ number :: late →
    (family.attached number).isBlockDevice = true → ∀ found turn,
      (early.foldlM (adapter.visitPort config) findings).exec world = (.ok found, turn) →
        (PortAreas.allocate.exec turn).1 = .ok (family.grant number)

theorem PortFamily.GrantedOn.front [Device α] [Device τ] {family : PortFamily} {adapter : Adapter}
    {config : Config} {early late : List Nat} {findings : Findings}
    {world : World (Backplane α τ)}
    (hgranted : family.GrantedOn adapter config (early ++ late) findings world) :
    family.GrantedOn adapter config early findings world := by
  intro first number more hsplit
  exact hgranted first number (more ++ late) (by rw [hsplit, List.append_assoc, List.cons_append])

namespace Adapter

open Backplane (alone)

variable [Device α] [Device τ] {family : PortFamily} {config : Config} {number slots : Nat}
  {world looked : World (Backplane α τ)}

/-- What is attached to a port of a backplane is what its own registers say. -/
theorem exists_attachment
    (hdescribes : family.Describes slots config world.patience number (world.device.ports number)) :
    ∃ looked, (HostM.attachment (.port number)).exec world =
        (.ok (family.attached number), looked) ∧ World.Beside number world looked := by
  have halike : HostM.Counterparts (.port number)
      (HostM.attachment (.port number) : HostM (Backplane α τ) Attachment)
      (HostM.attachment (.port number) : HostM τ Attachment) := .attachment
  obtain ⟨⟨_, _, hsingle⟩, hbeside⟩ := halike.goesAs world [] {}
  obtain ⟨_, htold, _⟩ := HostM.exists_attachment_of_stable
    (show Device.Stable _ _ _ (alone world number [] {}).device from hdescribes.stable)
  rw [htold] at hsingle
  exact ⟨_, Prod.ext (congrArg Prod.fst hsingle).symm rfl, hbeside⟩

/-- A port of a backplane is started as it is alone, with the answer that is known of it, and is
left as it is left alone. -/
theorem exists_startDevice
    (hdescribes : family.Describes slots config world.patience number (world.device.ports number))
    (hoffers : (alone world number [] {}).Offers world.patience (world.device.ports number)
      (family.grant number))
    (hblock : (family.attached number).isBlockDevice = true)
    (hseen : (HostM.attachment (.port number)).exec world =
      (.ok (family.attached number), looked)) :
    ∃ after, (startDevice number slots config).exec looked = (family.answer number, after) ∧
      World.Beside number world after ∧ ∃ more text,
        (lookAndStart number slots config).exec (alone world number [] {}) =
          (family.answer number, alone after number more text) := by
  have hstarts : HostM.Counterparts (.port number)
      (lookAndStart number slots config : HostM (Backplane α τ) _)
      (lookAndStart number slots config : HostM τ _) :=
    .bind .attachment fun _ => counterparts_startDevice number slots config
  obtain ⟨⟨more, text, hsingle⟩, hbeside⟩ := hstarts.goesAs world [] {}
  have hanswered := hdescribes.independent hblock _ hoffers
  rw [hsingle] at hanswered
  have hsame : (startDevice number slots config).exec looked =
      (lookAndStart number slots config).exec world := by
    rw [lookAndStart, HostM.exec_bind_ok hseen]
  rw [hsame]
  exact ⟨_, Prod.ext hanswered rfl, hbeside, more, text, hsingle.trans (Prod.ext hanswered rfl)⟩

/-- What a visit to a port yields is what the port yields alone. A port with a device is left as it
is left alone, and the visit to a port without one asks for no memory. -/
theorem exists_visitPort (adapter : Adapter)
    (hdescribes : family.Describes adapter.slots config world.patience number
      (world.device.ports number))
    (hgranted : (family.attached number).isBlockDevice = true →
      (PortAreas.allocate.exec world).1 = .ok (family.grant number)) (findings : Findings) :
    ∃ after, (visitPort adapter config findings number).exec world =
        ((family.yield number).map findings.addAny, after) ∧ World.Visits [number] world after ∧
      if (family.attached number).isBlockDevice then ∃ more text,
        (lookAndStart number adapter.slots config).exec (alone world number [] {}) =
          (family.answer number, alone after number more text)
      else World.SameGrants after world := by
  let opened : World (Backplane α τ) :=
    { world with accesses := .opened (.port number) :: world.accesses }
  have hasked : (HostM.openWindow (.port number)).exec world = (.ok (), opened) := rfl
  obtain ⟨looked, hseen, hbeside⟩ :=
    exists_attachment (show family.Describes adapter.slots config opened.patience number
      (opened.device.ports number) from hdescribes)
  rw [visitPort, HostM.exec_bind_ok hasked, HostM.exec_bind_ok hseen, PortFamily.yield]
  cases hblock : (family.attached number).isBlockDevice with
  | false =>
    have hstill : World.SameGrants looked world := by
      obtain rfl := congrArg Prod.snd hseen
      exact ⟨rfl, rfl⟩
    by_cases habsent : family.attached number = .absent
    · rw [if_pos habsent]
      exact ⟨_, rfl, .of_beside (hbeside.trans (.of_same rfl rfl rfl)), hstill.1, hstill.2⟩
    · rw [if_neg habsent]
      exact ⟨_, rfl, .of_beside (hbeside.trans (.of_same rfl rfl rfl)), hstill.1, hstill.2⟩
  | true =>
    have hpresent : family.attached number ≠ .absent := by
      intro habsent
      rw [habsent] at hblock
      cases hblock
    have hoffers := World.offers_alone number (hgranted hblock)
    obtain ⟨after, hstarted, haround, halone⟩ :=
      exists_startDevice (show family.Describes adapter.slots config opened.patience number
        (opened.device.ports number) from hdescribes) hoffers hblock hseen
    rw [if_neg hpresent, if_neg (by decide)]
    rcases hanswer : family.answer number with reason | error | ⟨disk, engine⟩ <;>
      rw [hanswer] at hstarted halone
    · rw [HostM.exec_bind_error hstarted]
      exact ⟨_, rfl, .of_beside haround, halone⟩
    · rw [HostM.exec_bind_ok hstarted]
      exact ⟨_, rfl, .of_beside (haround.trans (.of_same rfl rfl rfl)), halone⟩
    · rw [HostM.exec_bind_ok hstarted]
      exact ⟨_, rfl, .of_beside (haround.trans (.of_same rfl rfl rfl)), halone⟩

/-- By induction over the ports. A walk over ports that are not waited for without an end finds what
each of them yields, in the order of the walk, and keeps the tally. -/
theorem exists_walk (adapter : Adapter) {numbers : List Nat} (hnodup : numbers.Nodup)
    {world : World (Backplane α τ)} {findings : Findings}
    (hdescribes : ∀ number ∈ numbers, family.Describes adapter.slots config world.patience number
      (world.device.ports number))
    (hgranted : family.GrantedOn adapter config numbers findings world)
    (hanswered : ∀ number ∈ numbers, (family.yield number).isOk = true) :
    ∃ found after, (numbers.foldlM (visitPort adapter config) findings).exec world =
        (.ok found, after) ∧ World.Visits numbers world after ∧
      found.found.map NamedDisk.device =
        findings.found.map NamedDisk.device ++ numbers.filterMap family.device? ∧
      (findings.Tallied → found.Tallied) := by
  induction numbers generalizing world findings with
  | nil => exact ⟨findings, world, rfl, .refl world, (List.append_nil _).symm, id⟩
  | cons number numbers ih =>
    obtain ⟨between, hfirst, hvisit, _⟩ := exists_visitPort adapter
      (hdescribes number List.mem_cons_self)
      (fun hblock => hgranted [] number numbers rfl hblock findings world rfl) findings
    rw [PortFamily.yield_of_isOk (hanswered number List.mem_cons_self)] at hfirst
    let grown := findings.addAny (family.device? number)
    have hfirst : (visitPort adapter config findings number).exec world = (.ok grown, between) :=
      hfirst
    have hstill :=
      hvisit.untouched_behind (family.Describes adapter.slots config) hnodup hdescribes
    have hfurther : family.GrantedOn adapter config numbers grown between := by
      intro early other late hsplit hblock found turn hended
      refine hgranted (number :: early) other late (congrArg _ hsplit) hblock found turn ?_
      rw [List.foldlM_cons, HostM.exec_bind_ok hfirst, hended]
    obtain ⟨found, after, hwalked, hvisits, hdevices, htallied⟩ := ih hnodup.of_cons hstill hfurther
      fun other hmember => hanswered other (List.mem_cons_of_mem number hmember)
    refine ⟨found, after, ?_, hvisit.trans hvisits, ?_, fun hbefore => htallied (hbefore.addAny _)⟩
    · rw [List.foldlM_cons, HostM.exec_bind_ok hfirst, hwalked]
    · rw [hdevices, Findings.device_addAny, List.append_assoc, List.filterMap_cons]
      cases family.device? number <;> rfl

end Adapter

/-! Grants. -/

/-- The ports with a device are granted one after another what is known of them. In contrast to what
is granted on a walk, nothing else that the driver does is looked at. -/
def PortFamily.GrantsInTurn (family : PortFamily) : List Nat → World σ → Prop
  | [], _ => True
  | number :: numbers, world =>
    if (family.attached number).isBlockDevice then
      (PortAreas.allocate.exec world).1 = .ok (family.grant number) ∧
        family.GrantsInTurn numbers (PortAreas.allocate.exec world).2
    else family.GrantsInTurn numbers world

namespace PortFamily.GrantsInTurn

variable {family : PortFamily} {number : Nat} {numbers : List Nat} {world first second : World σ}

theorem of_sameGrants (hgrants : family.GrantsInTurn numbers first)
    (hsame : World.SameGrants first second) : family.GrantsInTurn numbers second := by
  induction numbers generalizing first second with
  | nil => trivial
  | cons number numbers ih =>
    unfold GrantsInTurn at hgrants ⊢
    obtain ⟨houtcome, hleft⟩ := PortAreas.clerical_allocate.alike _ _ hsame
    split
    · next hblock =>
      rw [if_pos hblock] at hgrants
      exact ⟨houtcome.symm.trans hgrants.1, ih hgrants.2 hleft⟩
    · next hother =>
      rw [if_neg hother] at hgrants
      exact ih hgrants hsame

theorem granted (hblock : (family.attached number).isBlockDevice = true)
    (houtcome : (PortAreas.allocate.exec world).1 = .ok (family.grant number))
    (hleft : World.SameGrants first (PortAreas.allocate.exec world).2)
    (hrest : family.GrantsInTurn numbers first) :
    family.GrantsInTurn (number :: numbers) world := by
  rw [GrantsInTurn, if_pos hblock]
  exact ⟨houtcome, hrest.of_sameGrants hleft⟩

theorem passed (hother : (family.attached number).isBlockDevice = false)
    (hrest : family.GrantsInTurn numbers world) :
    family.GrantsInTurn (number :: numbers) world := by
  rwa [GrantsInTurn, hother, if_neg Bool.false_ne_true]

end PortFamily.GrantsInTurn

/-- Ports that ask for memory once, and keep it or give back all of it, are granted on a walk what
the allocator has for them one after another. -/
theorem Adapter.grantedOn_of_frugal [Device α] [Device τ] (adapter : Adapter) {family : PortFamily}
    {config : Config} {numbers : List Nat} (hnodup : numbers.Nodup)
    {world : World (Backplane α τ)} {findings : Findings}
    (hdescribes : ∀ number ∈ numbers, family.Describes adapter.slots config world.patience number
      (world.device.ports number))
    (hfrugal : ∀ number ∈ numbers, family.Frugal adapter.slots config world.patience number
      (world.device.ports number))
    (hgrants : family.GrantsInTurn numbers world) :
    family.GrantedOn adapter config numbers findings world := by
  induction numbers generalizing world findings with
  | nil => intro early number late hsplit; simp at hsplit
  | cons number numbers ih =>
    unfold PortFamily.GrantsInTurn at hgrants
    have hgranted : (family.attached number).isBlockDevice = true →
        (PortAreas.allocate.exec world).1 = .ok (family.grant number) := by
      intro hblock
      rw [if_pos hblock] at hgrants
      exact hgrants.1
    obtain ⟨between, hfirst, hvisit, hleft⟩ := exists_visitPort adapter
      (hdescribes number List.mem_cons_self) hgranted findings
    have hlater : family.GrantsInTurn numbers between := by
      cases hblock : (family.attached number).isBlockDevice with
      | false =>
        rw [hblock, if_neg Bool.false_ne_true] at hgrants hleft
        exact hgrants.of_sameGrants hleft.symm
      | true =>
        rw [if_pos hblock] at hgrants hleft
        obtain ⟨_, _, halone⟩ := hleft
        obtain ⟨_, _, hallocated⟩ := World.exists_allocate_alone number world
        have hkept :=
          hfrugal number List.mem_cons_self hblock _ (World.offers_alone number hgrants.1)
        rw [halone, hallocated] at hkept
        exact hgrants.2.of_sameGrants ⟨hkept.allocator.symm, hkept.frameEvents.symm⟩
    have hstill :=
      hvisit.untouched_behind (family.Describes adapter.slots config) hnodup hdescribes
    have hthrifty := hvisit.untouched_behind (family.Frugal adapter.slots config) hnodup hfrugal
    intro early other late hsplit hblock found turn hended
    cases early with
    | nil =>
      cases hsplit
      cases hended
      exact hgranted hblock
    | cons head early =>
      obtain ⟨rfl, hrest⟩ := List.cons.inj hsplit
      rw [List.foldlM_cons] at hended
      rcases hyielded : family.yield number with reason | device <;> rw [hyielded] at hfirst
      · rw [HostM.exec_bind_error hfirst] at hended
        cases hended
      · rw [HostM.exec_bind_ok hfirst] at hended
        exact ih hnodup.of_cons hstill hthrifty hlater early other late hrest hblock found
          turn hended

/-- What the rising allocator grants a port behind a number of frames. -/
def risingAreasFrom (frames : Nat) : PortAreas :=
  let region (place size : Nat) : Region :=
    ⟨.ofNat (firstFrame + (frames + place) * frameSize), size⟩
  { list := region 0 1, tables := region 1 2, read := region 3 16, write := region 19 16 }

theorem sized_risingAreasFrom (frames : Nat) : (risingAreasFrom frames).Sized :=
  ⟨rfl, rfl, rfl, rfl⟩

theorem sound_risingAreasFrom {frames : Nat} (hfew : frames ≤ 0x10000000) :
    (risingAreasFrom frames).Sound := by
  constructor
  · simp only [risingAreasFrom, PortAreas.regions, List.forall_mem_cons, List.not_mem_nil,
      false_implies, implies_true, and_true, Region.address, Region.size, PhysAddr.toNat_ofNat,
      PhysAddr.space, firstFrame, frameSize]
    omega
  · simp only [risingAreasFrom, PortAreas.regions, List.pairwise_cons, List.forall_mem_cons,
      List.not_mem_nil, false_implies, implies_true, and_true, List.Pairwise.nil, Region.Apart,
      Region.address, Region.size, PhysAddr.toNat_ofNat, PhysAddr.space, firstFrame, frameSize]
    omega

/-! Discovery. -/

/-- Drives behind the ports of an adapter, as they are before a driver comes. Ports without one have
an empty bay. -/
def Backplane.ofDrives (implemented : UInt32) (drives : List Drive) :
    Backplane Bench.Rack SimulatedPort where
  adapter := { bays := #[], adapter := { pi := implemented } }
  ports number := { drive := drives.getD number .empty }

theorem Backplane.regular_ofDrives {implemented : UInt32} {drives : List Drive}
    (hregular : ∀ drive ∈ drives, drive.Regular) (number : Nat) :
    ((ofDrives implemented drives).ports number).drive.Regular := by
  change (drives.getD number .empty).Regular
  rw [List.getD_eq_getElem?_getD]
  cases hthere : drives[number]? with
  | none => exact Site.regular_empty
  | some drive => exact hregular drive (List.mem_of_getElem? hthere)

namespace Adapter

/-- The ports that are visited are those whose bits are set in the register for implemented
ports. -/
theorem mem_portsOf {implemented : UInt32} {number : Nat} :
    number ∈ portsOf implemented ↔ number < 32 ∧ Word.test implemented number = true := by
  rw [portsOf, List.mem_filter, List.mem_range]

theorem pairwise_portsOf (implemented : UInt32) : (portsOf implemented).Pairwise (· < ·) :=
  List.pairwise_lt_range.filter _

theorem nodup_portsOf (implemented : UInt32) : (portsOf implemented).Nodup :=
  (pairwise_portsOf implemented).imp Nat.ne_of_lt

/-- What comes before the walk over the ports: the adapter is enabled and its version is noted. -/
def survey [Device σ] (adapter : Adapter) : HostM σ UInt32 := do
  enable
  let implementedVersion ← version
  HostM.note .info ("AHCI: version " ++ implementedVersion.describe ++ ", " ++
    toString adapter.slots ++ " command slots, 64-bit: " ++ toString adapter.wide)
  portsImplemented

/-- Discovery is the survey, a walk over the implemented ports, and a note if nothing was found. -/
theorem discover_eq [Device σ] (adapter : Adapter) (config : Config) :
    (discover adapter config : HostM σ (List NamedDisk)) = (do
      let implemented ← survey adapter
      let findings ← (portsOf implemented).foldlM (visitPort adapter config) {}
      if findings.disks.isEmpty then
        HostM.note .warn "AHCI: no devices found on any port"
      return findings.disks.reverse) := by
  simp only [discover, survey, bind_assoc]

theorem visits_survey [Device α] [Device τ] {adapter : Adapter}
    {start surveyed : World (Backplane α τ)} {implemented : UInt32}
    (htold : (survey adapter).exec start = (.ok implemented, surveyed)) :
    World.Visits [] start surveyed := by
  obtain rfl := congrArg Prod.snd htold
  refine ⟨fun _ _ => rfl, rfl, [_, _, _, _], rfl, rfl, ?_⟩
  simp [Access.window]

end Adapter

/-- How a walk over ports ends, and which ports are visited by then: with all the devices that they
yield, or at the first port whose device is waited for without an end. -/
inductive PortFamily.Ends (family : PortFamily) (config : Config) (numbers : List Nat) :
    List Nat → Except Halt (List NamedDisk) → Prop
  | found {disks : List NamedDisk}
      (hanswered : ∀ number ∈ numbers, (family.yield number).isOk = true)
      (hdevices : disks.map NamedDisk.device = numbers.filterMap family.device?)
      (hnumbered : Numbered disks) (hunique : (disks.map NamedDisk.name).Nodup) :
      Ends family config numbers numbers (.ok disks)
  | unending {early late : List Nat} {number : Nat} (hsplit : numbers = early ++ number :: late)
      (hanswered : ∀ other ∈ early, (family.yield other).isOk = true)
      (hendless : family.yield number = .error .unending)
      (hunlimited : config.completionLimit = none) :
      Ends family config numbers (early ++ [number]) (.error .unending)

namespace Adapter

variable [Device α] [Device τ] {family : PortFamily} {config : Config}

/-- Discovery on a backplane, over any kind of port of which it is known what it says, what it is
granted and how it answers. It visits exactly the implemented ports, in ascending order, each of
them once, and touches no other; it ends early only at a port that is waited for without an end,
which takes a configuration without a limit. Each port yields what it yields by itself: no device if
it does not come up, and otherwise a disk or packet drive as was seen on it, also if the device does
not tell who it is. So what is found does not depend on the ports between, and it is named by its
place among those of its kind. What memory a port is granted is assumed, since the ports before it
take theirs from the same allocator. -/
theorem discover_backplane (adapter : Adapter) {start surveyed : World (Backplane α τ)}
    {implemented : UInt32} (htold : (survey adapter).exec start = (.ok implemented, surveyed))
    (hdescribes : ∀ number ∈ portsOf implemented, family.Describes adapter.slots config
      start.patience number (start.device.ports number))
    (hgranted : family.GrantedOn adapter config (portsOf implemented) {} surveyed) :
    ((portsOf implemented).Pairwise (· < ·) ∧ ∀ number, number ∈ portsOf implemented ↔
        number < 32 ∧ Word.test implemented number = true) ∧
      (∀ number ∈ portsOf implemented, (family.attached number).isBlockDevice = true →
        ∀ world : World τ,
          world.Offers start.patience (start.device.ports number) (family.grant number) →
            ∃ brought ready, (do
                let _ ← HostM.attachment (.port number)
                HostM.bringUp (.port number) number adapter.slots config).exec world =
                  (.ok brought, ready) ∧
              Started number (family.attached number) config brought (family.answer number)) ∧
      ∃ result later visited, (discover adapter config).exec start = (result, later) ∧
        start.Visits visited later ∧
        family.Ends config (portsOf implemented) visited result := by
  refine ⟨⟨pairwise_portsOf implemented, fun _ => mem_portsOf⟩,
    fun number hmember hblock world hoffers =>
      exists_started_of_describes (hdescribes number hmember) hblock hoffers, ?_⟩
  have hlooked := visits_survey htold
  have hstill := hlooked.untouched (family.Describes adapter.slots config)
    (fun _ _ => List.not_mem_nil) hdescribes
  rw [discover_eq, HostM.exec_bind_ok htold]
  cases hstuck : (portsOf implemented).find? fun number => !(family.yield number).isOk with
  | none =>
    have hanswered : ∀ number ∈ portsOf implemented, (family.yield number).isOk = true := by
      simpa using hstuck
    obtain ⟨found, after, hwalked, hvisits, hdevices, htallied⟩ :=
      exists_walk adapter (nodup_portsOf implemented) hstill hgranted hanswered
    obtain ⟨_, hnumbered, hunique⟩ := htallied Findings.tallied_none
    have hends : family.Ends config (portsOf implemented) (portsOf implemented) (.ok found.found) :=
      .found hanswered hdevices hnumbered hunique
    rw [HostM.exec_bind_ok hwalked]
    by_cases hempty : found.disks.isEmpty = true
    · rw [if_pos hempty]
      exact ⟨_, _, _, rfl, (hlooked.trans hvisits).noted _, hends⟩
    · rw [if_neg hempty]
      exact ⟨_, _, _, rfl, hlooked.trans hvisits, hends⟩
  | some number =>
    obtain ⟨hfailed, early, late, hsplit, hanswered⟩ := List.find?_eq_some_iff_append.1 hstuck
    have hanswered : ∀ other ∈ early, (family.yield other).isOk = true := by simpa using hanswered
    have hnodup := nodup_portsOf implemented
    rw [hsplit] at hnodup hstill hgranted ⊢
    obtain ⟨hbefore, _, hapart⟩ := List.nodup_append.1 hnodup
    obtain ⟨found, turn, hwalked, hvisits, _⟩ := exists_walk adapter hbefore
      (fun other hmember => hstill other (List.mem_append_left _ hmember)) hgranted.front hanswered
    have hfresh : ∀ other ∈ [number], other ∉ early := by
      intro other his hmember
      exact hapart other hmember other (List.mem_cons.2 (.inl (List.mem_singleton.1 his))) rfl
    have hdescribes' := hvisits.untouched (family.Describes adapter.slots config) hfresh
      (by simpa using hstill number (by simp)) number (List.mem_singleton_self number)
    have hoffered := fun hblock => hgranted early number late rfl hblock found turn hwalked
    obtain ⟨after, hvisited, hvisit, _⟩ := exists_visitPort adapter hdescribes' hoffered found
    rcases hyielded : family.yield number with reason | device
    · rw [hyielded] at hvisited
      obtain ⟨hblock, hanswer⟩ := PortFamily.answer_of_yield_error hyielded
      obtain ⟨_, _, _, hstarted⟩ :=
        exists_started_of_describes hdescribes' hblock (World.offers_alone number (hoffered hblock))
      rw [hanswer] at hstarted
      cases hstarted with
      | unending hunlimited =>
        refine ⟨_, after, early ++ [number], ?_, hlooked.trans (hvisits.trans hvisit),
          .unending rfl hanswered hyielded hunlimited⟩
        have hwalk : ((early ++ number :: late).foldlM (visitPort adapter config) {}).exec
            surveyed = (.error .unending, after) := by
          rw [List.foldlM_append, HostM.exec_bind_ok hwalked, List.foldlM_cons]
          exact HostM.exec_bind_error hvisited
        exact HostM.exec_bind_error hwalk
    · rw [hyielded] at hfailed
      cases hfailed

/-- What six ports are granted if the third to ask is refused, and each of the others asks for four
regions. A port that asks for nothing, or is not implemented, may be given any entry. -/
def grantsBesideRefusal : Nat → Except DriverError PortAreas
  | 0 => .ok (risingAreasFrom 0)
  | 1 => .ok (risingAreasFrom 35)
  | 5 => .ok (risingAreasFrom 70)
  | _ => .error .outOfMemory

theorem sound_grantsBesideRefusal (number : Nat) (areas : PortAreas)
    (hgranted : grantsBesideRefusal number = .ok areas) : areas.Sized ∧ areas.Sound := by
  unfold grantsBesideRefusal at hgranted
  split at hgranted <;> cases hgranted
  all_goals exact ⟨sized_risingAreasFrom _, sound_risingAreasFrom (by decide)⟩

/-- The rising allocator that refuses its ninth request grants these ports what is told, in turn. -/
theorem grantsInTurn_besideRefusal {start : World σ}
    (hrising : start.allocator = risingAllocator [8]) (hfresh : start.frameEvents = [])
    (hgrants : family.grant = grantsBesideRefusal)
    (hhosts : ∀ number ∈ [0, 1, 4, 5], (family.attached number).isBlockDevice = true)
    (hvacant : (family.attached 3).isBlockDevice = false) :
    family.GrantsInTurn [0, 1, 3, 4, 5] start := by
  let held (frames : Nat) : List FrameEvent :=
    (risingAreasFrom frames).regions.reverse.map .granted
  let left (events : List FrameEvent) : World σ :=
    { start with allocator := risingAllocator [8], frameEvents := events }
  have hturns : family.GrantsInTurn [0, 1, 3, 4, 5] (left []) := by
    refine .granted (hhosts 0 (by decide)) (by rw [hgrants]; rfl)
      (show World.SameGrants (left (held 0)) _ from ⟨rfl, rfl⟩) ?_
    refine .granted (hhosts 1 (by decide)) (by rw [hgrants]; rfl)
      (show World.SameGrants (left (held 35 ++ held 0)) _ from ⟨rfl, rfl⟩) ?_
    refine .passed hvacant ?_
    refine .granted (hhosts 4 (by decide)) (by rw [hgrants]; rfl)
      (show World.SameGrants (left (.refused 1 :: held 35 ++ held 0)) _ from ⟨rfl, rfl⟩) ?_
    exact .granted (hhosts 5 (by decide)) (by rw [hgrants]; rfl) ⟨rfl, rfl⟩ trivial
  exact hturns.of_sameGrants ⟨hrising.symm, hfresh.symm⟩

/-- The hypotheses are met by six ports: three devices are found beside a disk that is not
implemented, a port without a device, and a disk that is refused memory. -/
theorem discover_backplane_of_six_ports :
    let disk : Drive := .disk (.blank sectorSize 64)
    let drives := [disk, .packetDrive (.blank driveBlockSize 16), disk, .empty, disk, disk]
    let start : World (Backplane Bench.Rack SimulatedPort) :=
      { device := .ofDrives 0b111011 drives, memory := {}, allocator := risingAllocator [8] }
    ∃ disks later, (discover ⟨1, true⟩ { readyLimit := 4, completionLimit := some 4 }).exec start =
        (.ok disks, later) ∧
      disks.map NamedDisk.name = ["hd0", "cd0", "hd1"] ∧
      start.Visits [0, 1, 3, 4, 5] later := by
  intro disk drives start
  let config : Config := { readyLimit := 4, completionLimit := some 4 }
  have hregular : ∀ drive ∈ drives, drive.Regular := by
    have hsata : disk.Regular := Site.regular_disk rfl
    simp only [drives, List.forall_mem_cons, List.not_mem_nil, false_implies, implies_true,
      and_true]
    exact ⟨hsata, Site.regular_packetDrive rfl, hsata, Site.regular_empty, hsata, hsata⟩
  obtain ⟨family, hgrants, hknown⟩ := SimulatedPort.exists_family
    (show ∀ number, (start.device.ports number).registers.cmd = 0 from fun _ => rfl)
    (Backplane.regular_ofDrives hregular) (Nat.le_refl 1)
    (show 0 < config.readyLimit.toNat by decide) (fun _ _ => rfl) sound_grantsBesideRefusal
    start.patience
  have hpresent (number : Nat) (htaken : number ∈ [0, 1, 4, 5]) :
      (start.device.ports number).drive.kind ≠ .empty := by
    simp only [List.mem_cons, List.not_mem_nil, or_false] at htaken
    rcases htaken with rfl | rfl | rfl | rfl <;> nofun
  have hhosts (number : Nat) (htaken : number ∈ [0, 1, 4, 5]) :
      (family.attached number).isBlockDevice = true := by
    rw [(hknown number).1]
    exact SimulatedPort.isBlockDevice_attachment (hpresent number htaken)
  have hvacancy : (family.attached 3).isBlockDevice = false := by
    rw [(hknown 3).1, SimulatedPort.attachment_eq]
    rfl
  have hturns : family.GrantsInTurn [0, 1, 3, 4, 5] start :=
    grantsInTurn_besideRefusal rfl rfl hgrants hhosts hvacancy
  have htold : (survey ⟨1, true⟩).exec start =
      (.ok 0b111011, ((survey ⟨1, true⟩).exec start).2) := rfl
  have hsurveyed := visits_survey htold
  have himplemented : portsOf 0b111011 = [0, 1, 3, 4, 5] := by decide
  have hdescribes := fun number (_ : number ∈ portsOf 0b111011) => (hknown number).2.1
  have hfrugal := fun number (_ : number ∈ portsOf 0b111011) => (hknown number).2.2.1
  have hgranted : family.GrantedOn ⟨1, true⟩ config (portsOf 0b111011) {} _ :=
    grantedOn_of_frugal ⟨1, true⟩ (nodup_portsOf _)
      (hsurveyed.untouched _ (fun _ _ => List.not_mem_nil) hdescribes)
      (hsurveyed.untouched _ (fun _ _ => List.not_mem_nil) hfrugal)
      (hturns.of_sameGrants ⟨rfl, rfl⟩)
  obtain ⟨_, _, result, later, visited, hended, hvisits, hends⟩ :=
    discover_backplane ⟨1, true⟩ htold hdescribes hgranted
  rw [himplemented] at hends
  cases hends with
  | unending _ _ _ hunlimited => cases hunlimited
  | @found disks hanswered hdevices hnumbered hunique =>
    refine ⟨disks, later, hended, ?_, hvisits⟩
    obtain ⟨zero, _, hzeroth, hlower⟩ := (hknown 0).2.2.2 (hpresent 0 (by decide))
    obtain ⟨one, _, hfirst, hoptical⟩ := (hknown 1).2.2.2 (hpresent 1 (by decide))
    have hrefused := (hknown 4).2.2.2 (hpresent 4 (by decide))
    obtain ⟨five, _, hfifth, hupper⟩ := (hknown 5).2.2.2 (hpresent 5 (by decide))
    simp only [List.filterMap_cons, List.filterMap_nil,
      PortFamily.device?_of_answer (hhosts 0 (by decide)) hzeroth,
      PortFamily.device?_of_answer (hhosts 1 (by decide)) hfirst,
      PortFamily.device?_of_vacant hvacancy,
      PortFamily.device?_of_answer (hhosts 4 (by decide)) hrefused,
      PortFamily.device?_of_answer (hhosts 5 (by decide)) hfifth, Except.toOption] at hdevices
    have hkinds : disks.map (·.disk.isOptical) = [false, true, false] := by
      have htold := congrArg (List.map (·.1.isOptical)) hdevices
      rw [List.map_map] at htold
      exact htold.trans (congrArg₂ _ hlower.isOptical_eq
        (congrArg₂ _ hoptical.isOptical_eq (congrArg (· :: []) hupper.isOptical_eq)))
    rw [hnumbered.names, hkinds]
    decide

end Adapter

end Ahci
