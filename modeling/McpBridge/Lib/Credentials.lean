import McpBridge.Lib.Runs
import Mathlib.Data.Finset.Basic
import Mathlib.Data.Finset.Lattice.Lemmas
/-!
# Who a Linux process is

User ids, group ids and capability sets, and the calls that change them, as
credentials(7) and capabilities(7) have them for a process whose secure bits and
keep-capabilities flag are clear. A call that is refused changes nothing, so `next`
is `none` there.

A process of a user other than root stays who it is, whatever it calls and whatever
program it runs that raises no privilege of its own, exactly where it may make
neither capability over ids effective (`confined_iff`). Where it may make both
effective, it becomes anyone (`becomes_anyone`).
-/

namespace McpBridge.Lib

/-! ## Credentials -/

/-- A capability by its number. -/
abbrev Cap := Fin 64

def capChown : Cap := ⟨0, by decide⟩
def capDacOverride : Cap := ⟨1, by decide⟩
def capDacReadSearch : Cap := ⟨2, by decide⟩
def capFowner : Cap := ⟨3, by decide⟩
def capSetgid : Cap := 6
def capSetuid : Cap := 7
def capSetpcap : Cap := 8

/-- Real, effective and saved ids, and the supplementary groups. -/
structure Ids where
  ruid : Nat
  euid : Nat
  suid : Nat
  rgid : Nat
  egid : Nat
  sgid : Nat
  groups : List Nat
deriving DecidableEq

/-- The ids of a process that is one user throughout. -/
def Ids.of (uid gid : Nat) (groups : List Nat) : Ids := ⟨uid, uid, uid, gid, gid, gid, groups⟩

def Ids.hasRoot (ids : Ids) : Bool := ids.ruid = 0 || ids.euid = 0 || ids.suid = 0

structure Caps where
  permitted : Finset Cap
  effective : Finset Cap
  inheritable : Finset Cap
  ambient : Finset Cap
  bounding : Finset Cap
  effective_le : effective ⊆ permitted
  ambient_le : ambient ⊆ permitted ∩ inheritable
deriving DecidableEq

structure Creds where
  ids : Ids
  caps : Caps
deriving DecidableEq

def Creds.able (n : Cap) (c : Creds) : Bool := n ∈ c.caps.effective

/-- A program file: the owner and group it runs as where its set-id bits are on, and its capabilities. -/
structure Image where
  owner : Option Nat := none
  group : Option Nat := none
  permitted : Finset Cap := ∅
  inheritable : Finset Cap := ∅
  effective : Bool := false
deriving DecidableEq

def Image.hasCaps (img : Image) : Bool := img.permitted ≠ ∅ || img.inheritable ≠ ∅ || img.effective

/-- It runs with no more than the process has. -/
def Image.Plain (img : Image) : Prop := img.owner = none ∧ img.group = none ∧ img.hasCaps = false

instance Image.decidablePlain (img : Image) : Decidable img.Plain := inferInstanceAs (Decidable (_ ∧ _))

/-! ## What changes the sets -/

namespace Caps

def noEffective (c : Caps) : Caps := { c with effective := ∅, effective_le := Finset.empty_subset _ }

def allEffective (c : Caps) : Caps := { c with effective := c.permitted, effective_le := Finset.Subset.refl _ }

def cleared (c : Caps) : Caps where
  permitted := ∅
  effective := ∅
  inheritable := c.inheritable
  ambient := ∅
  bounding := c.bounding
  effective_le := Finset.Subset.refl _
  ambient_le := Finset.empty_subset _

/-- The user ids were `old` and are `new`. -/
def changeUser (old new : Ids) (c : Caps) : Caps :=
  if old.hasRoot && !new.hasRoot then c.cleared
  else if old.euid = 0 && new.euid ≠ 0 then c.noEffective
  else if old.euid ≠ 0 && new.euid = 0 then c.allEffective
  else c

/-- `prctl(PR_CAP_AMBIENT_RAISE)`. -/
def raise (n : Cap) (c : Caps) : Option Caps :=
  if h : n ∈ c.permitted ∩ c.inheritable then
    some { c with ambient := insert n c.ambient, ambient_le := Finset.insert_subset h c.ambient_le }
  else none

/-- `prctl(PR_CAP_AMBIENT_LOWER)`. -/
def lower (n : Cap) (c : Caps) : Caps :=
  { c with ambient := c.ambient.erase n, ambient_le := (Finset.erase_subset n _).trans c.ambient_le }

/-- `prctl(PR_CAPBSET_DROP)`. -/
def dropBounding (n : Cap) (c : Caps) : Option Caps :=
  if capSetpcap ∈ c.effective then some { c with bounding := c.bounding.erase n } else none

/-- `capset`: what is not permitted any more leaves the ambient set as well. -/
def capset (permitted effective inheritable : Finset Cap) (c : Caps) : Option Caps :=
  if h : effective ⊆ permitted ∧ permitted ⊆ c.permitted ∧ inheritable ⊆ c.inheritable ∪ c.bounding ∧
      (capSetpcap ∈ c.effective ∨ inheritable ⊆ c.inheritable ∪ c.permitted) then
    some { permitted, effective, inheritable
           ambient := c.ambient ∩ (permitted ∩ inheritable)
           bounding := c.bounding
           effective_le := h.1
           ambient_le := Finset.inter_subset_right }
  else none

/-- `execve`. Where the file's own sets count (`own`) they are what it says; for root they are full. -/
def exec (own : Bool) (privileged : Bool) (img : Image) (fileEffective : Bool) (c : Caps) : Caps :=
  let ambient := if privileged then ∅ else c.ambient
  let permitted := (if own then c.inheritable ∩ img.inheritable else c.inheritable) ∪
    (if own then img.permitted ∩ c.bounding else c.bounding) ∪ ambient
  { permitted
    effective := if fileEffective then permitted else ambient
    inheritable := c.inheritable
    ambient
    bounding := c.bounding
    effective_le := by
      split
      · exact Finset.Subset.refl _
      · exact Finset.subset_union_right
    ambient_le := by
      refine Finset.subset_inter Finset.subset_union_right ?_
      show (if privileged then ∅ else c.ambient) ⊆ c.inheritable
      split
      · exact Finset.empty_subset _
      · exact c.ambient_le.trans Finset.inter_subset_right }

end Caps

/-! ## The calls -/

namespace Creds

def setgroups (groups : List Nat) (c : Creds) : Option Creds :=
  if c.able capSetgid then some { c with ids := { c.ids with groups } } else none

def setgid (gid : Nat) (c : Creds) : Option Creds :=
  if c.able capSetgid then some { c with ids := { c.ids with rgid := gid, egid := gid, sgid := gid } }
  else if gid = c.ids.rgid ∨ gid = c.ids.sgid then some { c with ids := { c.ids with egid := gid } }
  else none

/-- The user ids are changed, and the sets with them. -/
def changeUser (ids : Ids) (c : Creds) : Creds := ⟨ids, c.caps.changeUser c.ids ids⟩

def setuid (uid : Nat) (c : Creds) : Option Creds :=
  if c.able capSetuid then some (c.changeUser { c.ids with ruid := uid, euid := uid, suid := uid })
  else if uid = c.ids.ruid ∨ uid = c.ids.suid then some (c.changeUser { c.ids with euid := uid })
  else none

/-- `setresgid`; `none` leaves an id as it is. -/
def setresgid (r e s : Option Nat) (c : Creds) : Option Creds :=
  if c.able capSetgid || [r, e, s].all (·.all (· ∈ [c.ids.rgid, c.ids.egid, c.ids.sgid])) then
    some { c with ids := { c.ids with rgid := r.getD c.ids.rgid, egid := e.getD c.ids.egid, sgid := s.getD c.ids.sgid } }
  else none

/-- `setresuid`; `none` leaves an id as it is. -/
def setresuid (r e s : Option Nat) (c : Creds) : Option Creds :=
  if c.able capSetuid || [r, e, s].all (·.all (· ∈ [c.ids.ruid, c.ids.euid, c.ids.suid])) then
    some (c.changeUser { c.ids with ruid := r.getD c.ids.ruid, euid := e.getD c.ids.euid, suid := s.getD c.ids.suid })
  else none

/-- `execve`: a file with a set-id bit or capabilities empties the ambient set. The sets of a file
count as full for a real or effective root, and its effective flag as set for an effective one; but
not where the file makes another user root and has sets of its own. -/
def exec (img : Image) (c : Creds) : Creds :=
  let euid := img.owner.getD c.ids.euid
  let egid := img.group.getD c.ids.egid
  let root := (c.ids.ruid = 0 || euid = 0) && !(img.hasCaps && c.ids.ruid ≠ 0 && euid = 0)
  { ids := { c.ids with euid, suid := euid, egid, sgid := egid }
    caps := c.caps.exec (!root) (img.owner.isSome || img.group.isSome || img.hasCaps) img ((root && euid = 0) || img.effective) }

end Creds

inductive CredCall where
  | setgroups (groups : List Nat)
  | setgid (gid : Nat)
  | setuid (uid : Nat)
  | setresgid (r e s : Option Nat)
  | setresuid (r e s : Option Nat)
  | raise (n : Cap)
  | lower (n : Cap)
  | dropBounding (n : Cap)
  | capset (permitted effective inheritable : Finset Cap)
  | exec (img : Image)

def Creds.next (c : Creds) : CredCall → Option Creds
  | .setgroups groups => c.setgroups groups
  | .setgid gid => c.setgid gid
  | .setuid uid => c.setuid uid
  | .setresgid r e s => c.setresgid r e s
  | .setresuid r e s => c.setresuid r e s
  | .raise n => (c.caps.raise n).map fun caps => { c with caps }
  | .lower n => some { c with caps := c.caps.lower n }
  | .dropBounding n => (c.caps.dropBounding n).map fun caps => { c with caps }
  | .capset p e i => (c.caps.capset p e i).map fun caps => { c with caps }
  | .exec img => some (c.exec img)

/-- It runs no program that raises privilege. -/
def CredCall.Unaided : CredCall → Prop
  | .exec img => img.Plain
  | _ => True

/-! ## Plain programs -/

section
variable {img : Image} (h : img.Plain) (c : Creds)
include h

/-- A plain program keeps the effective ids, and saves them. -/
theorem Creds.exec_ids : (c.exec img).ids = { c.ids with suid := c.ids.euid, sgid := c.ids.egid } := by
  simp [Creds.exec, h.1, h.2.1]

/-- A user other than root keeps the ambient capabilities, and no others. -/
theorem Creds.exec_caps (hr : c.ids.ruid ≠ 0) (he : c.ids.euid ≠ 0) :
    (c.exec img).caps.permitted = c.caps.ambient ∧ (c.exec img).caps.effective = c.caps.ambient ∧
      (c.exec img).caps.ambient = c.caps.ambient := by
  obtain ⟨ho, hg, hcaps⟩ := h
  obtain ⟨⟨hp, hi⟩, heff⟩ : (img.permitted = ∅ ∧ img.inheritable = ∅) ∧ img.effective = false := by
    simpa [Image.hasCaps] using hcaps
  simp [Creds.exec, Caps.exec, ho, hg, hcaps, hr, he, hp, hi, heff, Finset.inter_empty, Finset.empty_inter, Finset.empty_union]

end

/-! ## Staying one user -/

/-- Whatever calls the process makes, with no program that raises privilege, it is who it was. -/
def Creds.Confined (c : Creds) : Prop :=
  ∀ calls t, (∀ e ∈ calls, CredCall.Unaided e) → run Creds.next c calls = some t → t.ids = c.ids

/-- One user throughout, with no capability over ids. -/
structure Creds.Powerless (uid gid : Nat) (groups : List Nat) (c : Creds) : Prop where
  ids : c.ids = Ids.of uid gid groups
  setgid : capSetgid ∉ c.caps.permitted
  setuid : capSetuid ∉ c.caps.permitted

section
variable {uid gid : Nat} {groups : List Nat} {c c' : Creds}

theorem Creds.Powerless.not_able (h : c.Powerless uid gid groups) : c.able capSetgid = false ∧ c.able capSetuid = false := by
  simp only [Creds.able, decide_eq_false_iff_not]
  exact ⟨fun hm => h.setgid (c.caps.effective_le hm), fun hm => h.setuid (c.caps.effective_le hm)⟩

theorem Caps.changeUser_self (ids : Ids) (caps : Caps) : caps.changeUser ids ids = caps := by
  unfold Caps.changeUser
  simp

/-- What no call by itself does: gain a permitted capability. -/
theorem Creds.Powerless.of_permitted (h : c.Powerless uid gid groups) (hids : c'.ids = c.ids)
    (hsub : c'.caps.permitted ⊆ c.caps.permitted) : c'.Powerless uid gid groups where
  ids := hids.trans h.ids
  setgid hm := h.setgid (hsub hm)
  setuid hm := h.setuid (hsub hm)

theorem Creds.Powerless.changeUser (h : c.Powerless uid gid groups) {ids : Ids} (hids : ids = c.ids) :
    (c.changeUser ids).Powerless uid gid groups := by
  subst hids
  exact h.of_permitted rfl (by rw [Creds.changeUser, Caps.changeUser_self])

/-- Ids that are all the same stay so under ids taken from them. -/
theorem getD_of_all {o : Option Nat} {n : Nat} (h : o.all (· ∈ [n, n, n]) = true) : o.getD n = n := by
  cases o <;> simp_all

theorem Creds.Powerless.next (h0 : uid ≠ 0) (h : c.Powerless uid gid groups) {e : CredCall} (he : e.Unaided)
    (hn : c.next e = some c') : c'.Powerless uid gid groups := by
  obtain ⟨hg, hu⟩ := h.not_able
  have hids := h.ids
  cases e with
  | setgroups gs => simp [Creds.next, Creds.setgroups, hg] at hn
  | setgid g =>
    simp only [Creds.next, Creds.setgid, hg, hids, Ids.of, Bool.false_eq_true, if_false, or_self, Option.ite_none_right_eq_some,
      Option.some.injEq] at hn
    obtain ⟨rfl, rfl⟩ := hn
    exact h.of_permitted hids.symm (Finset.Subset.refl _)
  | setuid u =>
    simp only [Creds.next, Creds.setuid, hu, hids, Ids.of, Bool.false_eq_true, if_false, or_self, Option.ite_none_right_eq_some,
      Option.some.injEq] at hn
    obtain ⟨rfl, rfl⟩ := hn
    exact h.changeUser hids.symm
  | setresgid r e s =>
    simp only [Creds.next, Creds.setresgid, hg, hids, Ids.of, Bool.false_or, Option.ite_none_right_eq_some, List.all_cons,
      List.all_nil, Bool.and_true, Bool.and_eq_true, Option.some.injEq] at hn
    obtain ⟨⟨hr, he, hs⟩, rfl⟩ := hn
    refine h.of_permitted ?_ (Finset.Subset.refl _)
    simp only [getD_of_all hr, getD_of_all he, getD_of_all hs]
    exact hids.symm
  | setresuid r e s =>
    simp only [Creds.next, Creds.setresuid, hu, hids, Ids.of, Bool.false_or, Option.ite_none_right_eq_some, List.all_cons,
      List.all_nil, Bool.and_true, Bool.and_eq_true, Option.some.injEq] at hn
    obtain ⟨⟨hr, he, hs⟩, rfl⟩ := hn
    refine h.changeUser ?_
    simp only [getD_of_all hr, getD_of_all he, getD_of_all hs]
    exact hids.symm
  | raise n =>
    obtain ⟨caps, hcaps, rfl⟩ := Option.map_eq_some_iff.1 hn
    unfold Caps.raise at hcaps
    split at hcaps
    · cases hcaps
      exact h.of_permitted rfl (Finset.Subset.refl _)
    · cases hcaps
  | lower n =>
    cases hn
    exact h.of_permitted rfl (Finset.Subset.refl _)
  | dropBounding n =>
    obtain ⟨caps, hcaps, rfl⟩ := Option.map_eq_some_iff.1 hn
    obtain ⟨-, hcaps⟩ := Option.ite_none_right_eq_some.1 hcaps
    cases hcaps
    exact h.of_permitted rfl (Finset.Subset.refl _)
  | capset p e i =>
    obtain ⟨caps, hcaps, rfl⟩ := Option.map_eq_some_iff.1 hn
    unfold Caps.capset at hcaps
    split at hcaps
    · next hle =>
      cases hcaps
      exact h.of_permitted rfl hle.2.1
    · cases hcaps
  | exec img =>
    cases hn
    have hroot : c.ids.ruid ≠ 0 ∧ c.ids.euid ≠ 0 := by
      rw [hids]
      exact ⟨h0, h0⟩
    refine h.of_permitted ?_ ?_
    · rw [Creds.exec_ids he, hids]
      rfl
    · rw [(Creds.exec_caps he c hroot.1 hroot.2).1]
      exact c.caps.ambient_le.trans Finset.inter_subset_left

theorem Creds.Powerless.run (h0 : uid ≠ 0) (h : c.Powerless uid gid groups) {calls : List CredCall}
    (he : ∀ e ∈ calls, CredCall.Unaided e) (hr : run Creds.next c calls = some c') : c'.Powerless uid gid groups := by
  induction calls generalizing c with
  | nil =>
    cases hr
    exact h
  | cons e calls ih =>
    obtain ⟨d, hd, hr⟩ := run_cons.1 hr
    exact ih (h.next h0 (he e List.mem_cons_self) hd) (fun e' he' => he e' (List.mem_cons_of_mem e he')) hr

/-! ## Becoming another -/

/-- What is permitted may be made effective. -/
theorem Caps.capset_self (caps : Caps) : caps.capset caps.permitted caps.permitted caps.inheritable = some caps.allEffective := by
  unfold Caps.capset
  rw [dif_pos ⟨Finset.Subset.refl _, Finset.Subset.refl _, Finset.subset_union_left, .inr Finset.subset_union_left⟩]
  simp only [Finset.inter_eq_left.2 caps.ambient_le]
  rfl

/-- The calls that make a process any one user. -/
def becoming (c : Creds) (uid gid : Nat) (groups : List Nat) : List CredCall :=
  [.capset c.caps.permitted c.caps.permitted c.caps.inheritable, .setgroups groups, .setgid gid, .setuid uid]

/-- Calls, with no program that raises privilege, lead from `c` to `P`. -/
def Creds.Reaches (c : Creds) (P : Creds → Prop) : Prop :=
  ∃ calls t, (∀ e ∈ calls, CredCall.Unaided e) ∧ run Creds.next c calls = some t ∧ P t

theorem becoming_unaided (c : Creds) (uid gid : Nat) (groups : List Nat) : ∀ e ∈ becoming c uid gid groups, e.Unaided := by
  simp [becoming, CredCall.Unaided]

section
variable (hg : capSetgid ∈ c.caps.permitted) (hu : capSetuid ∈ c.caps.permitted)
include hg hu

theorem run_becoming (uid gid : Nat) (groups : List Nat) :
    run Creds.next c (becoming c uid gid groups) =
      some ⟨Ids.of uid gid groups, c.caps.allEffective.changeUser { c.ids with groups, rgid := gid, egid := gid, sgid := gid }
        (Ids.of uid gid groups)⟩ := by
  simp [becoming, run, Creds.next, Caps.capset_self, Caps.allEffective, Creds.setgroups, Creds.setgid, Creds.setuid, Creds.able,
    hg, hu, Creds.changeUser, Ids.of]

/-- Who may make both capabilities over ids effective becomes anyone. -/
theorem becomes_anyone (uid gid : Nat) (groups : List Nat) : c.Reaches fun t => t.ids = Ids.of uid gid groups :=
  ⟨_, _, becoming_unaided c uid gid groups, run_becoming hg hu uid gid groups, rfl⟩

/-- As root, a program then has what may be inherited and all of the bounding set. -/
theorem becomes_root : c.Reaches fun t => t.ids = Ids.of 0 0 [] ∧ t.caps.effective = c.caps.inheritable ∪ c.caps.bounding := by
  let caps := c.caps.allEffective.changeUser { c.ids with groups := [], rgid := 0, egid := 0, sgid := 0 } (Ids.of 0 0 [])
  have hcaps : caps.inheritable = c.caps.inheritable ∧ caps.bounding = c.caps.bounding ∧ caps.ambient = c.caps.ambient := by
    simp only [caps, Caps.changeUser, Ids.hasRoot, Ids.of]
    by_cases he : c.ids.euid = 0 <;> simp [he, Caps.allEffective]
  refine ⟨becoming c 0 0 [] ++ [.exec {}], Creds.exec {} ⟨Ids.of 0 0 [], caps⟩, ?_, ?_, ?_, ?_⟩
  · intro e he
    rcases List.mem_append.1 he with he | he
    · exact becoming_unaided c 0 0 [] e he
    · rw [List.mem_singleton.1 he]
      exact ⟨rfl, rfl, rfl⟩
  · rw [run_append, run_becoming hg hu]
    rfl
  · rw [Creds.exec_ids ⟨rfl, rfl, rfl⟩]
    rfl
  · have hsub : c.caps.ambient ⊆ c.caps.inheritable ∪ c.caps.bounding :=
      (c.caps.ambient_le.trans Finset.inter_subset_right).trans Finset.subset_union_left
    simp [Creds.exec, Caps.exec, Ids.of, Image.hasCaps, hcaps, Finset.union_eq_left.2 hsub]

end

/-- With one of the two, a process becomes another than it is. -/
theorem not_confined (hm : capSetgid ∈ c.caps.permitted ∨ capSetuid ∈ c.caps.permitted) : ¬ c.Confined := by
  intro hc
  rcases hm with hm | hm
  · have hids := hc [.capset c.caps.permitted c.caps.permitted c.caps.inheritable, .setgid (c.ids.rgid + 1)] _
      (by simp [CredCall.Unaided])
      (by simp [run, Creds.next, Caps.capset_self, Caps.allEffective, Creds.setgid, Creds.able, hm]; rfl)
    simpa using congrArg Ids.rgid hids
  · have hids := hc [.capset c.caps.permitted c.caps.permitted c.caps.inheritable, .setuid (c.ids.ruid + 1)] _
      (by simp [CredCall.Unaided])
      (by simp [run, Creds.next, Caps.capset_self, Caps.allEffective, Creds.setuid, Creds.able, hm]; rfl)
    simpa [Creds.changeUser] using congrArg Ids.ruid hids

/-- A process of a user other than root stays who it is exactly where it may make neither capability effective. -/
theorem confined_iff (hids : c.ids = Ids.of uid gid groups) (h0 : uid ≠ 0) :
    c.Confined ↔ capSetgid ∉ c.caps.permitted ∧ capSetuid ∉ c.caps.permitted := by
  constructor
  · intro hc
    by_contra hm
    rw [not_and_or, not_not, not_not] at hm
    exact not_confined hm hc
  · rintro ⟨hg, hu⟩ calls t he hr
    have h : c.Powerless uid gid groups := ⟨hids, hg, hu⟩
    rw [(h.run h0 he hr).ids, hids]

end

end McpBridge.Lib
