/-
# `Config.Pool` — what holds of the pool over any run

The calls of the configuration module as a machine over any storage: its
content, its results and its failures are whatever they are, and a call
that does not return stops the system.  `WellFormed` is the invariant of
the pool; the values of a pool that was restored are checked one by one, so
the storage cannot break it (`init_wellFormed`).
-/
import UavcanAdapter.Base.Machine
import UavcanAdapter.Config.Store

namespace UavcanAdapter.Config

open Base

/-! ## Calls and runs -/

/-- A call from outside the module. -/
inductive Request
  | register (param : ConfigParam)
  | init
  | set (name : CString) (value : UInt32)
  | get (name : CString)
  | save
  | erase
deriving DecidableEq

/-- What a call returns. -/
inductive Response
  | none
  | code (res : Int)
  | value (v : UInt32)
deriving DecidableEq

section Machine

variable {σ : Type} (b : IStorageBackend σ)

def perform (c : Config) : Request → Prog σ (Config × Response)
  | .register param => do
      let c ← Prog.lift (c.configRegisterParam param)
      return (c, .none)
  | .init => do
      let (c, res) ← init (some b) c
      return (c, .code res)
  | .set name value => do
      let (c, res) ← Prog.lift (c.configSet name value)
      return (c, .code res)
  | .get name => do
      let v ← Prog.lift (c.configGet name)
      return (c, .value v)
  | .save => do
      let res ← configSave b c
      return (c, .code res)
  | .erase => do
      let (c, res) ← configErase b c
      return (c, .code res)

/-- The module starts with no parameter; the storage starts with any
content. -/
def machine : Machine (Config × σ) (Request × Response) where
  init s := s.1 = {}
  step s a s' := perform b s.1 a.1 s.2 = (s'.2, .ok (s'.1, a.2))

end Machine

/-! ## The invariant -/

/-- Descriptors that have passed the checks of the registration. -/
structure Registered (descrs : List ConfigParam) : Prop where
  defaults : ∀ d ∈ descrs, isValid d d.default_ = true
  distinct : (descrs.map ConfigParam.name).Nodup
  atMost : descrs.length ≤ configParamsMax

structure WellFormed (c : Config) : Prop where
  registered : Registered c.descrs
  hash : c.layoutHash = layoutHashOf (c.descrs.map ConfigParam.name)
  valid : ∀ e ∈ c.pool, isValid e.descr e.value = true

variable {c c' : Config}

theorem mem_descrs {e : Entry} (h : e ∈ c.pool) : e.descr ∈ c.descrs := List.mem_map_of_mem h

/-- All that matters of two pools is what is registered. -/
theorem WellFormed.of_eq (h : WellFormed c) (hd : c'.descrs = c.descrs)
    (hh : c'.layoutHash = c.layoutHash) (hv : ∀ e ∈ c'.pool, isValid e.descr e.value = true) :
    WellFormed c' where
  registered := by rw [hd]; exact h.registered
  hash := by rw [hh, hd, h.hash]
  valid := hv

theorem wellFormed_empty : WellFormed {} where
  registered := { defaults := by simp [descrs], distinct := by simp [descrs], atMost := by simp }
  hash := rfl
  valid := by simp

theorem valid_reinitializeDefaults (h : Registered c.descrs) :
    ∀ e ∈ c.reinitializeDefaults.pool, isValid e.descr e.value = true := by
  intro e he
  obtain ⟨e', he', rfl⟩ := List.mem_map.mp he
  exact h.defaults e'.descr (mem_descrs he')

theorem valid_revalidate (h : Registered c.descrs) :
    ∀ e ∈ c.revalidate.pool, isValid e.descr e.value = true := by
  intro e he
  obtain ⟨e', he', rfl⟩ := List.mem_map.mp he
  split
  · assumption
  · exact h.defaults e'.descr (mem_descrs he')

/-! ## One lemma a call -/

theorem indexByName_eq_none {name : CString} (h : c.indexByName name = none) :
    name ∉ c.descrs.map ConfigParam.name := by
  intro hmem
  obtain ⟨d, hd, rfl⟩ := List.mem_map.mp hmem
  obtain ⟨e, he, rfl⟩ := List.mem_map.mp hd
  have hne := List.findFinIdx?_eq_none_iff.mp h e he
  simp at hne

/-- Registration accepts a valid parameter with a new name while there is
room, and appends it. -/
theorem configRegisterParam_eq_ok {param : ConfigParam}
    (h : c.configRegisterParam param = .ok c') :
    c.frozen = false ∧ c.pool.length < configParamsMax ∧ isValid param param.default_ = true ∧
      param.name ∉ c.descrs.map ConfigParam.name ∧
      c' = { c with pool := c.pool ++ [{ descr := param, value := param.default_ }],
                    layoutHash := param.name.chars.foldl crc32Step c.layoutHash } := by
  obtain ⟨_, hfrozen, h⟩ := Call.bind_eq_ok.mp h
  obtain ⟨_, hroom, h⟩ := Call.bind_eq_ok.mp h
  obtain ⟨_, hvalid, h⟩ := Call.bind_eq_ok.mp h
  obtain ⟨_, hname, h⟩ := Call.bind_eq_ok.mp h
  exact ⟨Call.assert_eq_ok.mp hfrozen, Call.assert_eq_ok.mp hroom, Call.assert_eq_ok.mp hvalid,
    indexByName_eq_none (Call.assert_eq_ok.mp hname), (Call.pure_eq_ok.mp h).symm⟩

theorem Registered.append {ds : List ConfigParam} {param : ConfigParam} (h : Registered ds)
    (hroom : ds.length < configParamsMax) (hvalid : isValid param param.default_ = true)
    (hname : param.name ∉ ds.map ConfigParam.name) : Registered (ds ++ [param]) where
  defaults := by
    intro d hd
    rcases List.mem_append.mp hd with hd | hd
    · exact h.defaults d hd
    · obtain rfl := List.mem_singleton.mp hd
      exact hvalid
  distinct := by
    rw [List.map_append]
    refine List.nodup_append.mpr ⟨h.distinct, List.nodup_singleton _, ?_⟩
    rintro n hn n' hn' rfl
    obtain rfl := List.mem_singleton.mp hn'
    exact hname hn
  atMost := by
    rw [List.length_append, List.length_singleton]
    exact hroom

theorem configRegisterParam_wellFormed {param : ConfigParam} (hw : WellFormed c)
    (h : c.configRegisterParam param = .ok c') :
    WellFormed c' ∧ c'.descrs = c.descrs ++ [param] := by
  obtain ⟨-, hroom, hvalid, hname, rfl⟩ := configRegisterParam_eq_ok h
  set entry : Entry := { descr := param, value := param.default_ } with hentry
  have hdescrs : (c.pool ++ [entry]).map Entry.descr = c.descrs ++ [param] := by
    rw [List.map_append]
    rfl
  refine ⟨⟨?_, ?_, ?_⟩, hdescrs⟩
  · rw [descrs, hdescrs]
    exact hw.registered.append (by simpa using hroom) hvalid hname
  · rw [descrs, hdescrs, List.map_append, List.map_singleton, layoutHashOf_append_singleton,
      ← hw.hash]
  · intro e he
    rcases List.mem_append.mp he with he | he
    · exact hw.valid e he
    · obtain rfl := List.mem_singleton.mp he
      exact hvalid

/-- `configSet` fails and changes nothing, or succeeds and changes the entry
of the name. -/
theorem configSet_eq_ok {name : CString} {value : UInt32} {res : Int}
    (h : c.configSet name value = .ok (c', res)) :
    (res ≠ 0 ∧ c' = c) ∨
    (res = 0 ∧ ∃ pre e post, c.pool = pre ++ e :: post ∧ e.descr.name = name ∧
      isValid e.descr value = true ∧
      c' = { c with modificationCnt := c.modificationCnt + 1,
                    pool := pre ++ { e with value := value } :: post }) := by
  obtain ⟨_, -, h⟩ := Call.bind_eq_ok.mp h
  split at h
  · cases Call.pure_eq_ok.mp h
    exact Or.inl ⟨by decide, rfl⟩
  rename_i index hindex
  split at h
  · cases Call.pure_eq_ok.mp h
    exact Or.inl ⟨by decide, rfl⟩
  rename_i hvalid
  cases Call.pure_eq_ok.mp h
  refine Or.inr ⟨rfl, c.pool.take index, c.pool[index], c.pool.drop (index + 1), ?_, ?_, ?_, ?_⟩
  · rw [Fin.getElem_fin, ← List.drop_eq_getElem_cons index.isLt, List.take_append_drop]
  · simpa using (List.findFinIdx?_eq_some_iff.mp hindex).1
  · simpa using hvalid
  · rw [List.set_eq_take_append_cons_drop, if_pos index.isLt]

theorem configSet_wellFormed {name : CString} {value : UInt32} {res : Int} (hw : WellFormed c)
    (h : c.configSet name value = .ok (c', res)) : WellFormed c' := by
  rcases configSet_eq_ok h with ⟨-, rfl⟩ | ⟨-, pre, e, post, hpool, -, hvalid, rfl⟩
  · exact hw
  · refine hw.of_eq (by simp [descrs, hpool]) rfl ?_
    intro e' he'
    have hold : ∀ e', e' ∈ pre ∨ e' ∈ post → isValid e'.descr e'.value = true := by
      intro e' he'
      apply hw.valid
      rw [hpool]
      rcases he' with he' | he'
      · exact List.mem_append_left _ he'
      · exact List.mem_append_right _ (List.mem_cons_of_mem _ he')
    rcases List.mem_append.mp he' with he' | he'
    · exact hold e' (Or.inl he')
    · rcases List.mem_cons.mp he' with rfl | he'
      · exact hvalid
      · exact hold e' (Or.inr he')

section Storage

variable {σ : Type} {b : IStorageBackend σ} {s s' : σ} {res : Int}

theorem initError_eq_ok {flashRes : Int} (h : initError c flashRes s = (s', .ok (c', res))) :
    c' = c.reinitializeDefaults := by
  obtain ⟨_, _, -, h⟩ := Prog.bind_eq_ok.mp h
  obtain ⟨-, h⟩ := Prog.pure_eq_ok.mp h
  exact (congrArg Prod.fst h).symm

theorem initCheckCrc_eq_ok (h : initCheckCrc b c s = (s', .ok (c', res))) :
    c' = c.reinitializeDefaults ∨ c' = c.revalidate := by
  obtain ⟨_, ⟨flashRes, data⟩, -, h⟩ := Prog.bind_eq_ok.mp h
  dsimp only at h
  split at h
  · exact Or.inl (initError_eq_ok h)
  split at h
  · obtain ⟨-, h⟩ := Prog.pure_eq_ok.mp h
    exact Or.inr (congrArg Prod.fst h).symm
  · obtain ⟨-, h⟩ := Prog.pure_eq_ok.mp h
    exact Or.inl (congrArg Prod.fst h).symm

/-- Whatever the storage does, the pool ends with its defaults, or with
values that were checked one by one. -/
theorem initFrozen_eq_ok (h : initFrozen b c s = (s', .ok (c', res))) :
    c' = c.reinitializeDefaults ∨
      ∃ vs, vs.length = c.pool.length ∧ c' = (c.withValues vs).revalidate := by
  obtain ⟨_, ⟨flashRes, data⟩, -, h⟩ := Prog.bind_eq_ok.mp h
  dsimp only at h
  split at h
  · exact Or.inl (initError_eq_ok h)
  split at h
  · obtain ⟨_, ⟨_, data⟩, -, h⟩ := Prog.bind_eq_ok.mp h
    have hlen := length_words c.pool.length data
    have hdefaults := reinitializeDefaults_withValues hlen
    split at h
    · exact Or.inl ((initError_eq_ok h).trans hdefaults)
    · rcases initCheckCrc_eq_ok h with h | h
      · exact Or.inl (h.trans hdefaults)
      · exact Or.inr ⟨_, hlen, h⟩
  · obtain ⟨-, h⟩ := Prog.pure_eq_ok.mp h
    exact Or.inl (congrArg Prod.fst h).symm

/-- What `init` leaves of the configuration: the same parameters, with
valid values. -/
theorem init_eq_ok (h : init (some b) c s = (s', .ok (c', res))) (hr : Registered c.descrs) :
    c.frozen = false ∧ c'.frozen = true ∧ c'.descrs = c.descrs ∧ c'.layoutHash = c.layoutHash ∧
      ∀ e ∈ c'.pool, isValid e.descr e.value = true := by
  obtain ⟨_, _, -, h⟩ := Prog.bind_eq_ok.mp h
  obtain ⟨_, _, hfrozen, h⟩ := Prog.bind_eq_ok.mp h
  refine ⟨(Prog.assert_eq_ok.mp hfrozen).2, ?_⟩
  rcases initFrozen_eq_ok h with rfl | ⟨vs, hlen, rfl⟩
  · exact ⟨rfl, descrs_reinitializeDefaults, rfl, valid_reinitializeDefaults hr⟩
  · have hdescrs := (pool_withValues (c := { c with frozen := true }) hlen).1
    refine ⟨rfl, descrs_revalidate.trans hdescrs, rfl, valid_revalidate ?_⟩
    rw [hdescrs]
    exact hr

theorem init_wellFormed (hw : WellFormed c) (h : init (some b) c s = (s', .ok (c', res))) :
    WellFormed c' := by
  obtain ⟨-, -, hdescrs, hhash, hvalid⟩ := init_eq_ok h hw.registered
  exact hw.of_eq hdescrs hhash hvalid

/-- `configErase` changes the pool iff the storage reports no error. -/
theorem configErase_eq_ok (h : configErase b c s = (s', .ok (c', res))) :
    c.frozen = true ∧ b.erase s = (s', .ok res) ∧
      ((0 ≤ res ∧
        c' = { c.reinitializeDefaults with modificationCnt := c.modificationCnt + 1 }) ∨
      (res < 0 ∧ c' = c)) := by
  obtain ⟨_, _, hfrozen, h⟩ := Prog.bind_eq_ok.mp h
  obtain ⟨rfl, hfrozen'⟩ := Prog.assert_eq_ok.mp hfrozen
  obtain ⟨s₁, res', herase, h⟩ := Prog.bind_eq_ok.mp h
  split at h
  · rename_i hres
    obtain ⟨rfl, h⟩ := Prog.pure_eq_ok.mp h
    cases h
    exact ⟨hfrozen', herase, Or.inl ⟨hres, rfl⟩⟩
  · rename_i hres
    obtain ⟨rfl, h⟩ := Prog.pure_eq_ok.mp h
    cases h
    exact ⟨hfrozen', herase, Or.inr ⟨by omega, rfl⟩⟩

theorem configErase_wellFormed (hw : WellFormed c)
    (h : configErase b c s = (s', .ok (c', res))) : WellFormed c' := by
  obtain ⟨-, -, ⟨-, rfl⟩ | ⟨-, rfl⟩⟩ := configErase_eq_ok h
  · exact hw.of_eq descrs_reinitializeDefaults rfl (valid_reinitializeDefaults hw.registered)
  · exact hw

/-! ## All runs -/

/-- What a step does to the configuration, one case a request. -/
theorem perform_wellFormed {a : Request} {r : Response} (hw : WellFormed c)
    (h : perform b c a s = (s', .ok (c', r))) : WellFormed c' := by
  cases a with
  | register param =>
      obtain ⟨_, c₁, hreg, h⟩ := Prog.bind_eq_ok.mp h
      cases (Prog.pure_eq_ok.mp h).2
      exact (configRegisterParam_wellFormed hw (Prog.lift_eq_ok.mp hreg).2).1
  | init =>
      obtain ⟨_, ⟨c₁, res⟩, hinit, h⟩ := Prog.bind_eq_ok.mp h
      cases (Prog.pure_eq_ok.mp h).2
      exact init_wellFormed hw hinit
  | set name value =>
      obtain ⟨_, ⟨c₁, res⟩, hset, h⟩ := Prog.bind_eq_ok.mp h
      cases (Prog.pure_eq_ok.mp h).2
      exact configSet_wellFormed hw (Prog.lift_eq_ok.mp hset).2
  | get name =>
      obtain ⟨_, v, -, h⟩ := Prog.bind_eq_ok.mp h
      cases (Prog.pure_eq_ok.mp h).2
      exact hw
  | save =>
      obtain ⟨_, res, -, h⟩ := Prog.bind_eq_ok.mp h
      cases (Prog.pure_eq_ok.mp h).2
      exact hw
  | erase =>
      obtain ⟨_, ⟨c₁, res⟩, herase, h⟩ := Prog.bind_eq_ok.mp h
      cases (Prog.pure_eq_ok.mp h).2
      exact configErase_wellFormed hw herase

theorem reachable_wellFormed {s : Config × σ} (h : (machine b).Reachable s) : WellFormed s.1 := by
  refine Machine.Reachable.invariant (I := fun s => WellFormed s.1) ?_ ?_ h
  · intro s hs
    rw [hs]
    exact wellFormed_empty
  · intro s a s' _ hw hst
    exact perform_wellFormed hw hst

/-- In every reachable state each value is valid for its descriptor, the
names are distinct and at most 40; a call that fails, and `configSave`,
leave values and counter alone, and a successful `configSet` changes the
value of the name and counts. -/
theorem pool_invariant (b : IStorageBackend σ) {s : Config × σ} (h : (machine b).Reachable s) :
    ((∀ e ∈ s.1.pool, isValid e.descr e.value = true) ∧ s.1.names.Nodup ∧ s.1.pool.length ≤ 40) ∧
    (∀ name value res s', res ≠ 0 → (machine b).step s (.set name value, .code res) s' →
      s'.1.pool = s.1.pool ∧ s'.1.modificationCnt = s.1.modificationCnt) ∧
    (∀ res s', (machine b).step s (.save, res) s' →
      s'.1.pool = s.1.pool ∧ s'.1.modificationCnt = s.1.modificationCnt) ∧
    (∀ eraseRes t res s', b.erase s.2 = (t, .ok eraseRes) → eraseRes < 0 →
      (machine b).step s (.erase, res) s' →
      s'.1.pool = s.1.pool ∧ s'.1.modificationCnt = s.1.modificationCnt) ∧
    ∀ name value s', (machine b).step s (.set name value, .code 0) s' →
      ∃ pre e post, s.1.pool = pre ++ e :: post ∧ e.descr.name = name ∧
        s'.1.pool = pre ++ { e with value := value } :: post ∧
        s'.1.modificationCnt = s.1.modificationCnt + 1 := by
  have hw := reachable_wellFormed h
  have hset : ∀ name value res s', (machine b).step s (.set name value, .code res) s' →
      s.1.configSet name value = .ok (s'.1, res) := by
    intro name value res s' hst
    obtain ⟨_, ⟨c₁, res'⟩, hset, hst⟩ := Prog.bind_eq_ok.mp hst
    cases (Prog.pure_eq_ok.mp hst).2
    exact (Prog.lift_eq_ok.mp hset).2
  refine ⟨⟨hw.valid, ?_, ?_⟩, ?_, ?_, ?_, ?_⟩
  · have hnames : s.1.names = s.1.descrs.map ConfigParam.name := by simp [names, descrs]
    rw [hnames]
    exact hw.registered.distinct
  · rw [← length_descrs]
    exact hw.registered.atMost
  · intro name value res s' hres hst
    rcases configSet_eq_ok (hset name value res s' hst) with ⟨-, hc⟩ | ⟨h0, -⟩
    · rw [hc]
      exact ⟨rfl, rfl⟩
    · exact absurd h0 hres
  · intro res s' hst
    obtain ⟨_, res', -, hst⟩ := Prog.bind_eq_ok.mp hst
    obtain ⟨hc, -⟩ := Prod.mk.inj (Prog.pure_eq_ok.mp hst).2
    rw [← hc]
    exact ⟨rfl, rfl⟩
  · intro eraseRes t res s' hfail hneg hst
    obtain ⟨t', ⟨c₁, res'⟩, herase, hst⟩ := Prog.bind_eq_ok.mp hst
    obtain ⟨hc₁, -⟩ := Prod.mk.inj (Prog.pure_eq_ok.mp hst).2
    obtain ⟨-, hres, hcase⟩ := configErase_eq_ok herase
    obtain ⟨rfl, h⟩ := Prod.mk.inj (hfail.symm.trans hres)
    cases h
    rw [← hc₁]
    rcases hcase with ⟨hpos, -⟩ | ⟨-, hc⟩
    · omega
    · rw [hc]
      exact ⟨rfl, rfl⟩
  · intro name value s' hst
    rcases configSet_eq_ok (hset name value 0 s' hst) with
      ⟨h0, -⟩ | ⟨-, pre, e, post, hpool, hname, -, hc⟩
    · exact absurd rfl h0
    · rw [hc]
      exact ⟨pre, e, post, hpool, hname, rfl, rfl⟩

/-- One request after another. -/
def performAll (b : IStorageBackend σ) : List Request → Config → Prog σ Config
  | [], c => pure c
  | a :: as, c => do
      let (c, _) ← perform b c a
      performAll b as c

theorem reachable_performAll : ∀ {as : List Request} {c c' : Config} {s s' : σ},
    (machine b).Reachable (c, s) → performAll b as c s = (s', .ok c') →
      (machine b).Reachable (c', s')
  | [], _, _, _, _, hr, h => by
      obtain ⟨rfl, rfl⟩ := Prog.pure_eq_ok.mp h
      exact hr
  | a :: as, c, c', s, s', hr, h => by
      obtain ⟨s₁, ⟨c₁, r⟩, hone, h⟩ := Prog.bind_eq_ok.mp h
      have hst : (machine b).step (c, s) (a, r) (c₁, s₁) := hone
      exact reachable_performAll (hr.step hst) h

/-- A run from the start of the program that returns ends in a reachable
state. -/
theorem exists_reachable {as : List Request} {p : Config → Prop}
    (h : Call.ReturnsWith (performAll b as {} s).2 p) :
    ∃ c', p c' ∧ (machine b).Reachable (c', (performAll b as {} s).1) := by
  obtain ⟨c', hc, hp⟩ := h
  exact ⟨c', hp, reachable_performAll (.init rfl) (Prod.ext rfl hc)⟩

end Storage

/-- A storage of 1024 bytes in RAM. -/
def ramBackend : IStorageBackend (List UInt8) where
  read offset data s := (s, .ok (0, slice s offset data.length))
  write offset data s := (patch s offset data, .ok 0)
  erase _ := (List.replicate 1024 0xFF, .ok 0)

/-- A parameter between 0 and 10 with default 1. -/
def sampleParam (chars : List UInt8) (h : 0 ∉ chars) : ConfigParam where
  name := ⟨chars, h⟩
  default_ := 0x3F800000
  min := 0
  max := 0x41200000
  type := .float

theorem nul_notMem_a : (0 : UInt8) ∉ [97] := by decide

/-- One parameter, restored from a blank storage and set to 2. -/
theorem pool_invariant_one_param : ∃ s, (machine ramBackend).Reachable s ∧
    s.1.values = [0x40000000] ∧ ∀ e ∈ s.1.pool, isValid e.descr e.value = true := by
  have hrun : Call.ReturnsWith (performAll ramBackend
      [.register (sampleParam [97] nul_notMem_a), .init, .set ⟨[97], nul_notMem_a⟩ 0x40000000] {}
      (List.replicate 1024 0xFF)).2 (fun c => c.values = [0x40000000]) := by decide +kernel
  obtain ⟨c', hvalues, hr⟩ := exists_reachable hrun
  exact ⟨_, hr, hvalues, (pool_invariant ramBackend hr).1.1⟩

end UavcanAdapter.Config
