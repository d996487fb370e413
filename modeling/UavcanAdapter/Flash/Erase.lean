/-
# `Flash.Erase` — erasing a region, whatever the erases do

`FlashWriter::erase` walks over the bytes of a region and erases a page
whenever it meets a byte in use.  Its own body changes whole pages under the
walk, and a page erase may fail: it then leaves anything in its page, and
may raise an error flag.  `Fpec.Confined` is all that is assumed of the
controller here: an erase stays inside its page.  The copies of the class in
the bootloader and in the application do not differ in this function.

`Scan` is the walk as a relation, one rule for each way through the body of
the loop, with the addresses it erased in their order.  Every fact about the
call is read off it by induction on the walk; `Erases` collects them.
-/
import UavcanAdapter.Flash.Writer

namespace UavcanAdapter

open Base

namespace Fpec

/-- A page erase, of whatever outcome, changes its own page only. -/
def Confined (hw : Fpec) : Prop :=
  ∀ f a x, hw.page x ≠ hw.page a → (hw.erase f a).1 x = f.mem x

/-- The page erase of address `a` goes well on flash `f`. -/
def Succeeds (hw : Fpec) (f : Flash) (a : Nat) : Prop :=
  (hw.erase f a).2 = false ∧ ∀ x, hw.page x = hw.page a → (hw.erase f a).1 x = 0xFF

theorem Lawful.confined {hw : Fpec} (hl : hw.Lawful) : hw.Confined := by
  intro f a x hx
  rw [hl.erase f a]
  exact if_neg hx

end Fpec

namespace FlashWriter

variable (hw : Fpec)

/-- The flash after the erase of one page. -/
def erased (f : Flash) (a : Nat) : Flash := (erasePageAt hw a f).1

/-- The flash after page erases at some addresses, one after another. -/
def erasedAll (f : Flash) (as : List Nat) : Flash := as.foldl (erased hw) f

/-- Page erases at some addresses, one after another, each with the flash it
meets. -/
def erasures : Flash → List Nat → List (Flash × Nat)
  | _, [] => []
  | f, a :: as => (f, a) :: erasures (erased hw f a) as

/-- The walk over `n` bytes from `pos` on: the addresses erased on the way,
and how it ends. -/
inductive Scan : Nat → Nat → Flash → List Nat → Flash × Call Bool → Prop
  /-- all bytes are walked over -/
  | done {pos : Nat} {f : Flash} : Scan 0 pos f [] (f, .ok true)
  /-- a byte that is blank -/
  | blank {n pos : Nat} {f : Flash} {as : List Nat} {out : Flash × Call Bool} :
      f.mem pos = 0xFF → Scan n (pos + 1) f as out → Scan (n + 1) pos f as out
  /-- an erase that raises an error flag -/
  | raised {n pos : Nat} {f : Flash} :
      f.mem pos ≠ 0xFF → (hw.erase f pos).2 = true →
        Scan (n + 1) pos f [pos] (erased hw f pos, .error .assertion)
  /-- an erase that leaves the byte in use -/
  | stopped {n pos : Nat} {f : Flash} :
      f.mem pos ≠ 0xFF → (hw.erase f pos).2 = false → (erased hw f pos).mem pos ≠ 0xFF →
        Scan (n + 1) pos f [pos] (erased hw f pos, .ok false)
  /-- an erase that leaves the byte blank -/
  | erase {n pos : Nat} {f : Flash} {as : List Nat} {out : Flash × Call Bool} :
      f.mem pos ≠ 0xFF → (hw.erase f pos).2 = false → (erased hw f pos).mem pos = 0xFF →
        Scan n (pos + 1) (erased hw f pos) as out → Scan (n + 1) pos f (pos :: as) out

variable {hw} {f f' : Flash} {as : List Nat} {n pos x : Nat} {out : Flash × Call Bool}

/-- The loop of `erase` is such a walk. -/
theorem eraseLoop_scan : ∀ (n pos : Nat) (f : Flash), ∃ as, Scan hw n pos f as (eraseLoop hw n pos f)
  | 0, _, _ => ⟨[], Scan.done⟩
  | n + 1, pos, f => by
      rw [eraseLoop]
      split
      · rename_i hdirty
        have hpage : erasePageAt hw pos f =
            (erased hw f pos, Call.assert ((hw.erase f pos).2 = false)) := rfl
        rw [hpage]
        rcases hflag : (hw.erase f pos).2 with - | -
        · rw [Call.assert_of_true rfl]
          by_cases hblank : (erased hw f pos).mem pos = 0xFF
          · obtain ⟨as, has⟩ := eraseLoop_scan n (pos + 1) (erased hw f pos)
            simp only [hblank, ne_eq, not_true_eq_false, if_false]
            exact ⟨pos :: as, Scan.erase hdirty hflag hblank has⟩
          · simp only [hblank, ne_eq, not_false_eq_true, if_true]
            exact ⟨[pos], Scan.stopped hdirty hflag hblank⟩
        · rw [Call.assert_of_false (by decide)]
          exact ⟨[pos], Scan.raised hdirty hflag⟩
      · rename_i hclean
        obtain ⟨as, has⟩ := eraseLoop_scan n (pos + 1) f
        exact ⟨as, Scan.blank (not_not.mp hclean) has⟩

/-! ## Sequences of page erases -/

theorem map_snd_erasures : ∀ (f : Flash) (as : List Nat), (erasures hw f as).map Prod.snd = as
  | _, [] => rfl
  | f, a :: as => by rw [erasures, List.map_cons, map_snd_erasures (erased hw f a) as]

theorem erasedAll_ops : ∀ (as : List Nat) (f : Flash),
    (erasedAll hw f as).ops = f.ops ++ as.map .erase
  | [], f => (List.append_nil f.ops).symm
  | a :: as, f => by
      have hops : (erased hw f a).ops = f.ops ++ [.erase a] := rfl
      have hrest := erasedAll_ops as (erased hw f a)
      rw [hops, List.append_assoc] at hrest
      exact hrest

/-- Erases change the pages of their addresses only. -/
theorem erasedAll_mem (hc : hw.Confined) : ∀ (as : List Nat) (f : Flash),
    (∀ a ∈ as, hw.page x ≠ hw.page a) → (erasedAll hw f as).mem x = f.mem x
  | [], _, _ => rfl
  | a :: as, f, h => by
      have hhere : (erased hw f a).mem x = f.mem x := hc f a x (h a List.mem_cons_self)
      rw [← hhere]
      exact erasedAll_mem hc as (erased hw f a) fun b hb => h b (List.mem_cons_of_mem a hb)

/-- An erase that goes well leaves blank what was blank. -/
theorem erased_blank (hc : hw.Confined) {a : Nat} (hs : hw.Succeeds f a) (hx : f.mem x = 0xFF) :
    (erased hw f a).mem x = 0xFF := by
  by_cases hp : hw.page x = hw.page a
  · exact hs.2 x hp
  · rw [← hx]
    exact hc f a x hp

/-- A blank page is not erased as long as all goes well. -/
theorem page_notMem (hc : hw.Confined) {p : Int} : ∀ (as : List Nat) (f : Flash),
    (∀ e ∈ erasures hw f as, hw.Succeeds e.1 e.2) →
      (∀ e ∈ erasures hw f as, e.1.mem e.2 ≠ 0xFF) →
        (∀ x, hw.page x = p → f.mem x = 0xFF) → p ∉ as.map hw.page
  | [], _, _, _, _ => List.not_mem_nil
  | a :: as, f, hs, hd, hp => by
      rw [erasures, List.forall_mem_cons] at hs hd
      have hpa : p ≠ hw.page a := fun h => hd.1 (hp a h.symm)
      have hrest : p ∉ as.map hw.page :=
        page_notMem hc as (erased hw f a) hs.2 hd.2 fun x hx => erased_blank hc hs.1 (hp x hx)
      simp only [List.map_cons, List.mem_cons, not_or]
      exact ⟨hpa, hrest⟩

/-- As long as all goes well no page is erased twice. -/
theorem nodup_pages (hc : hw.Confined) : ∀ (as : List Nat) (f : Flash),
    (∀ e ∈ erasures hw f as, hw.Succeeds e.1 e.2) →
      (∀ e ∈ erasures hw f as, e.1.mem e.2 ≠ 0xFF) → (as.map hw.page).Nodup
  | [], _, _, _ => List.nodup_nil
  | a :: as, f, hs, hd => by
      rw [erasures, List.forall_mem_cons] at hs hd
      rw [List.map_cons, List.nodup_cons]
      exact ⟨page_notMem hc as (erased hw f a) hs.2 hd.2 hs.1.2,
        nodup_pages hc as (erased hw f a) hs.2 hd.2⟩

/-! ## What a walk does -/

/-- A split of the history of a single erase. -/
theorem eq_of_append_cons {before after : List (Flash × Nat)} {g : Flash} {a : Nat}
    (h : erasures hw f [pos] = before ++ (g, a) :: after) : f = g ∧ pos = a ∧ after = [] := by
  cases before with
  | nil =>
      cases h
      exact ⟨rfl, rfl, rfl⟩
  | cons _ before =>
      have hnil : [] = before ++ (g, a) :: after := (List.cons.inj h).2
      simp at hnil

namespace Scan

theorem flash_eq (h : Scan hw n pos f as out) : out.1 = erasedAll hw f as := by
  induction h with
  | done => rfl
  | blank _ _ ih => exact ih
  | raised _ _ => rfl
  | stopped _ _ _ => rfl
  | erase _ _ _ _ ih => exact ih

/-- There is at most one erase for each byte. -/
theorem length_le (h : Scan hw n pos f as out) : as.length ≤ n := by
  induction h with
  | done => exact le_rfl
  | blank _ _ ih => omega
  | raised _ _ => simp
  | stopped _ _ _ => simp
  | erase _ _ _ _ ih => simpa using ih

/-- An erase is at a byte of the region that is in use at that moment. -/
theorem dirty (h : Scan hw n pos f as out) :
    ∀ e ∈ erasures hw f as, pos ≤ e.2 ∧ e.2 < pos + n ∧ e.1.mem e.2 ≠ 0xFF := by
  induction h with
  | done =>
      intro e he
      cases he
  | blank _ _ ih =>
      intro e he
      obtain ⟨hlo, hhi, hd⟩ := ih e he
      exact ⟨by omega, by omega, hd⟩
  | raised hd _ =>
      intro e he
      obtain rfl := List.mem_singleton.mp he
      exact ⟨le_rfl, by simp, hd⟩
  | stopped hd _ _ =>
      intro e he
      obtain rfl := List.mem_singleton.mp he
      exact ⟨le_rfl, by simp, hd⟩
  | erase hd _ _ _ ih =>
      intro e he
      rcases List.mem_cons.mp he with rfl | hrest
      · exact ⟨le_rfl, by simp, hd⟩
      · obtain ⟨hlo, hhi, hd'⟩ := ih e hrest
        exact ⟨by omega, by omega, hd'⟩

/-- An erase that raises a flag or leaves its byte in use is the last one,
and decides the result. -/
theorem last (h : Scan hw n pos f as out) {before after : List (Flash × Nat)} {g : Flash} {a : Nat}
    (hes : erasures hw f as = before ++ (g, a) :: after) :
    ((hw.erase g a).2 = true → after = [] ∧ out.2 = .error .assertion) ∧
      ((hw.erase g a).2 = false → (erased hw g a).mem a ≠ 0xFF →
        after = [] ∧ out.2 = .ok false) := by
  induction h generalizing before with
  | done => cases before <;> cases hes
  | blank _ _ ih => exact ih hes
  | raised _ hflag =>
      obtain ⟨rfl, rfl, rfl⟩ := eq_of_append_cons hes
      exact ⟨fun _ => ⟨rfl, rfl⟩, fun hok => absurd (hok.symm.trans hflag) Bool.false_ne_true⟩
  | stopped _ hflag _ =>
      obtain ⟨rfl, rfl, rfl⟩ := eq_of_append_cons hes
      exact ⟨fun hbad => absurd (hflag.symm.trans hbad) Bool.false_ne_true, fun _ _ => ⟨rfl, rfl⟩⟩
  | erase _ hflag hblank _ ih =>
      cases before with
      | nil =>
          cases hes
          exact ⟨fun hbad => absurd (hflag.symm.trans hbad) Bool.false_ne_true,
            fun _ hne => absurd hblank hne⟩
      | cons e before => exact ih (List.cons.inj hes).2

/-- The walk gets to its end iff every erase leaves its byte blank and
raises no flag. -/
theorem ok_true_iff (h : Scan hw n pos f as out) :
    out.2 = .ok true ↔
      ∀ e ∈ erasures hw f as, (hw.erase e.1 e.2).2 = false ∧ (erased hw e.1 e.2).mem e.2 = 0xFF := by
  induction h with
  | done => exact ⟨fun _ _ he => absurd he List.not_mem_nil, fun _ => rfl⟩
  | blank _ _ ih => exact ih
  | raised _ hflag => simp [erasures, hflag]
  | stopped _ _ hne => simp [erasures, hne]
  | erase _ hflag hblank _ ih =>
      rw [ih, erasures, List.forall_mem_cons]
      exact ⟨fun hrest => ⟨⟨hflag, hblank⟩, hrest⟩, fun hall => hall.2⟩

/-- The call returns from the walk unless an erase raises a flag. -/
theorem returns (h : Scan hw n pos f as out)
    (hok : ∀ e ∈ erasures hw f as, (hw.erase e.1 e.2).2 = false) : Call.Returns out.2 := by
  induction h with
  | done => exact ⟨true, rfl⟩
  | blank _ _ ih => exact ih hok
  | raised _ hflag =>
      rw [hok _ List.mem_cons_self] at hflag
      cases hflag
  | stopped _ _ _ => exact ⟨false, rfl⟩
  | erase _ _ _ _ ih => exact ih (List.forall_mem_cons.mp hok).2

/-- When every erase goes well the region is blank at the end, and so is all
that was blank before. -/
theorem mem_blank (hc : hw.Confined) (h : Scan hw n pos f as out)
    (hs : ∀ e ∈ erasures hw f as, hw.Succeeds e.1 e.2)
    (hx : (pos ≤ x ∧ x < pos + n) ∨ f.mem x = 0xFF) : out.1.mem x = 0xFF := by
  induction h with
  | done =>
      rcases hx with ⟨hlo, hhi⟩ | hx
      · omega
      · exact hx
  | @blank n pos f _ _ hblank _ ih =>
      apply ih hs
      by_cases hpos : x = pos
      · exact Or.inr (by rw [hpos, hblank])
      · exact hx.imp_left fun hx => ⟨by omega, by omega⟩
  | raised _ hflag =>
      have hok := (hs _ List.mem_cons_self).1
      rw [hflag] at hok
      cases hok
  | stopped _ _ hne => exact absurd ((hs _ List.mem_cons_self).2 _ rfl) hne
  | @erase n pos f _ _ _ _ hblank _ ih =>
      obtain ⟨hhere, hrest⟩ := List.forall_mem_cons.mp hs
      apply ih hrest
      by_cases hpos : x = pos
      · exact Or.inr (by rw [hpos, hblank])
      · exact hx.imp (fun hx => ⟨by omega, by omega⟩) (erased_blank hc hhere)

end Scan

/-! ## The call -/

/-- What a call of `erase` on flash `f` does, with page erases at the
addresses `as`: the flash `f'` it leaves, and its result `r`. -/
structure Erases (hw : Fpec) (f : Flash) (addr howMuch : Nat) (as : List Nat) (f' : Flash)
    (r : Call Bool) : Prop where
  /-- these are all the operations it issues -/
  ops : f'.ops = f.ops ++ as.map .erase
  flash : f' = erasedAll hw f as
  /-- there is at most one erase for each byte of the region -/
  at_most : as.length ≤ howMuch
  /-- an erased page contains a byte of the region that is in use -/
  dirty : ∀ e ∈ erasures hw f as,
    addr ≤ e.2 ∧ e.2 < addr + howMuch ∧ e.1.mem e.2 ≠ 0xFF
  /-- when every erase goes well no page is erased twice, and the result is
  true -/
  all_well : (∀ e ∈ erasures hw f as, hw.Succeeds e.1 e.2) →
    (as.map hw.page).Nodup ∧ r = .ok true
  /-- the call returns unless an erase raises an error flag -/
  returns : (∀ e ∈ erasures hw f as, (hw.erase e.1 e.2).2 = false) → Call.Returns r
  /-- an error flag ends the call in a failed assertion -/
  raised : ∀ before g a after, erasures hw f as = before ++ (g, a) :: after →
    (hw.erase g a).2 = true → after = [] ∧ r = .error .assertion
  /-- a byte that stays in use ends it with false -/
  stopped : ∀ before g a after, erasures hw f as = before ++ (g, a) :: after →
    (hw.erase g a).2 = false → (erased hw g a).mem a ≠ 0xFF → after = [] ∧ r = .ok false
  /-- the result is true iff neither happened and the region is blank -/
  true_iff : r = .ok true ↔
    (∀ e ∈ erasures hw f as, (hw.erase e.1 e.2).2 = false ∧ (erased hw e.1 e.2).mem e.2 = 0xFF) ∧
      ∀ i < howMuch, f'.mem (addr + i) = 0xFF
  /-- nothing changes outside the pages of the region -/
  frame : ∀ x, (∀ i < howMuch, hw.page x ≠ hw.page (addr + i)) → f'.mem x = f.mem x

/-- The final check of `erase`, behind its loop. -/
def blankCheck (addr howMuch : Nat) (out : Flash × Call Bool) : Call Bool :=
  match out.2 with
  | .ok true => .ok ((List.range howMuch).all fun i => out.1.mem (addr + i) == 0xFF)
  | r => r

variable {addr howMuch : Nat}

theorem erase_eq (hw32 : addr + howMuch < 2 ^ 32) :
    erase hw addr howMuch f =
      ((eraseLoop hw howMuch addr f).1, blankCheck addr howMuch (eraseLoop hw howMuch addr f)) := by
  have hn : wrap32 (addr + howMuch) - addr = howMuch := by rw [wrap32_of_lt hw32]; omega
  rw [erase, hn]
  rcases eraseLoop hw howMuch addr f with ⟨g, e | b⟩
  · rfl
  · cases b <;> rfl

theorem blankCheck_eq_ok_true_iff :
    blankCheck addr howMuch out = .ok true ↔
      out.2 = .ok true ∧ ∀ i < howMuch, out.1.mem (addr + i) = 0xFF := by
  rcases out with ⟨g, e | b⟩
  · simp [blankCheck]
  · cases b <;> simp [blankCheck]

/-- The check changes nothing but the result true. -/
theorem blankCheck_of_ne (h : out.2 ≠ .ok true) : blankCheck addr howMuch out = out.2 := by
  rcases out with ⟨g, e | b⟩
  · rfl
  · cases b with
    | false => rfl
    | true => exact absurd rfl h

theorem returns_blankCheck (h : Call.Returns out.2) :
    Call.Returns (blankCheck addr howMuch out) := by
  obtain ⟨b, hb⟩ := h
  rw [blankCheck, hb]
  cases b with
  | false => exact ⟨false, rfl⟩
  | true => exact ⟨_, rfl⟩

/-- On any controller whose page erases stay inside their page, however they
turn out. -/
theorem erase_erases (hc : hw.Confined) (f : Flash) (hw32 : addr + howMuch < 2 ^ 32) :
    ∃ as, Erases hw f addr howMuch as (erase hw addr howMuch f).1 (erase hw addr howMuch f).2 := by
  obtain ⟨as, h⟩ : ∃ as, Scan hw howMuch addr f as (eraseLoop hw howMuch addr f) :=
    eraseLoop_scan howMuch addr f
  refine ⟨as, ?_⟩
  have hdirty := h.dirty
  have hpage : ∀ a ∈ as, addr ≤ a ∧ a < addr + howMuch := by
    intro a ha
    obtain ⟨e, he, rfl⟩ := List.mem_map.mp ((map_snd_erasures f as).symm ▸ ha)
    exact ⟨(hdirty e he).1, (hdirty e he).2.1⟩
  rw [erase_eq hw32]
  refine ⟨?_, h.flash_eq, h.length_le, hdirty, ?_, ?_, ?_, ?_, ?_, ?_⟩
  · rw [h.flash_eq]
    exact erasedAll_ops as f
  · intro hs
    refine ⟨nodup_pages hc as f hs fun e he => (hdirty e he).2.2, ?_⟩
    rw [blankCheck_eq_ok_true_iff, h.ok_true_iff]
    exact ⟨fun e he => ⟨(hs e he).1, (hs e he).2 _ rfl⟩,
      fun i hi => h.mem_blank hc hs (Or.inl ⟨by omega, by omega⟩)⟩
  · intro hok
    exact returns_blankCheck (h.returns hok)
  · intro before g a after hes hflag
    obtain ⟨hafter, hr⟩ := (h.last hes).1 hflag
    exact ⟨hafter, by rw [blankCheck_of_ne (by rw [hr]; simp), hr]⟩
  · intro before g a after hes hflag hne
    obtain ⟨hafter, hr⟩ := (h.last hes).2 hflag hne
    exact ⟨hafter, by rw [blankCheck_of_ne (by rw [hr]; simp), hr]⟩
  · rw [blankCheck_eq_ok_true_iff, h.ok_true_iff]
  · intro x hx
    rw [h.flash_eq]
    apply erasedAll_mem hc as f
    intro a ha
    obtain ⟨hlo, hhi⟩ := hpage a ha
    have hne := hx (a - addr) (by omega)
    rwa [Nat.add_sub_cancel' hlo] at hne

/-- A flash of zeros, erased from the middle of a page on. -/
theorem erase_erases_zeros :
    ∃ as, Erases (Fpec.stm32f1 1024) { mem := fun _ => 0 } (flashBase + 100) 4000 as
      (erase (Fpec.stm32f1 1024) (flashBase + 100) 4000 { mem := fun _ => 0 }).1
      (erase (Fpec.stm32f1 1024) (flashBase + 100) 4000 { mem := fun _ => 0 }).2 :=
  erase_erases (Fpec.lawful_stm32f1 1024).confined _ (by decide)

end FlashWriter

end UavcanAdapter
