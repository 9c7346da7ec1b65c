import Inim.Pipeline.Answers

/-!
# Archives that do not disturb each other

If the calls for each index have a part of the world of their own (`Apart`), an index goes through the
pipeline as it would go alone: where it stands, the world agrees with one that the calls for it reach
from the world at the start (`Views`). What the calls return is then the same in every schedule, and
the same as when the items are processed one by one (`oneByOne_of_apart`).
-/

namespace Inim

open Lib

section Apart
variable {σ A B R π ρ : Type} (W : Workload σ A B R π ρ)

/-- The download call for the index, made where the world is `w`. -/
def Workload.Downloads (w : σ) (i : W.Index) (w' : σ) (d : Except String B) : Prop :=
  W.download.Finishes w (W.download.start (W.items.get i)) w' d

def Workload.Parses (w : σ) (i : W.Index) (b : B) (w' : σ) (r : R) : Prop :=
  W.parse.Finishes w (W.parse.start (b, W.items.get i)) w' r

/-- The answer of the calls for an index that is processed alone. -/
def Workload.Alone (w : σ) (i : W.Index) : Except String (B × R) → Prop
  | .ok (b, r) => ∃ v w', W.Downloads w i v (.ok b) ∧ W.Parses v i b w' r
  | .error e => ∃ v, W.Downloads w i v (.error e)

/-- The items one by one; the first failed download ends it. -/
inductive OneByOne : σ → List W.Index → Except String (List (B × R)) → Prop
  | nil {w} : OneByOne w [] (.ok [])
  | failed {w i is v e} (h : W.Downloads w i v (.error e)) : OneByOne w (i :: is) (.error e)
  | next {w i is v w' b r res} (h : W.Downloads w i v (.ok b)) (hp : W.Parses v i b w' r)
    (rest : OneByOne w' is res) : OneByOne w (i :: is) (res.map ((b, r) :: ·))

/-- Each index has a part of the world of its own: `Same i` is agreement on the part of `i`. -/
structure Workload.Apart (w : σ) (Same : W.Index → σ → σ → Prop) : Prop where
  refl : ∀ i v, Same i v v
  trans : ∀ i {x y z}, Same i x y → Same i y z → Same i x z
  download : ∀ i, W.download.Owns Same i w (W.download.start (W.items.get i))
  parse : ∀ {i v b}, W.Downloads w i v (.ok b) →
    W.parse.Owns Same i v (W.parse.start (b, W.items.get i))

variable {W}

/-! ## Where an index stands -/

/-- How far an index has come. -/
inductive Standing (B π ρ : Type) where
  | waiting
  | fetching (p : π)
  | fetched (b : B)
  | parsing (b : B) (p : ρ)
  | gone

def DownloadPc.carries {ι : Type} : DownloadPc ι B π → Option (ι × Standing B π ρ)
  | .popped i => some (i, .waiting)
  | .fetching i p => some (i, .fetching p)
  | .fetched i b | .sending i b => some (i, .fetched b)
  | .failed i _ => some (i, .gone)
  | .ready | .ended => none

def ParsePc.carries {ι : Type} : ParsePc ι B R ρ → Option (ι × Standing B π ρ)
  | .parsing i b p => some (i, .parsing b p)
  | .parsed i _ => some (i, .gone)
  | .ready | .receiving | .ended => none

theorem DownloadPc.taken_of_carries {ι : Type} [DecidableEq ι] {pc : DownloadPc ι B π} {i : ι}
    {x : Standing B π ρ} (h : pc.carries = some (i, x)) : pc.taken i = 1 := by
  cases pc with
  | ready | ended => cases h
  | popped _ | fetching _ _ | fetched _ _ | sending _ _ | failed _ _ =>
    simp only [carries, Option.some.injEq, Prod.mk.injEq] at h
    rw [h.1.symm]
    exact tick_self _

theorem ParsePc.taken_of_carries {ι : Type} [DecidableEq ι] {pc : ParsePc ι B R ρ} {i : ι}
    {x : Standing B π ρ} (h : pc.carries = some (i, x)) : pc.taken i = 1 := by
  cases pc with
  | ready | receiving | ended => cases h
  | parsing _ _ _ | parsed _ _ =>
    simp only [carries, Option.some.injEq, Prod.mk.injEq] at h
    rw [h.1.symm]
    exact tick_self _

namespace PipelineState

inductive At (s : PipelineState W) (i : W.Index) : Standing B π ρ → Prop
  | queued (h : i ∈ s.queue) : At s i .waiting
  | downloader {k x} (h : (s.downloaders k).carries = some (i, x)) : At s i x
  | channel {b} (h : (i, b) ∈ s.channel) : At s i (.fetched b)
  | parser {k x} (h : (s.parsers k).carries = some (i, x)) : At s i x
  | filled (h : s.filled i = 1) : At s i .gone
  | dropped (h : i ∈ s.dropped) : At s i .gone

section Place
variable {s : PipelineState W} {i : W.Index} {x y : Standing B π ρ}

theorem one_le_inChannel {b : B} (h : (i, b) ∈ s.channel) : 1 ≤ s.inChannel i :=
  List.count_pos_iff.2 (List.mem_map_of_mem (f := Prod.fst) h)

theorem taken_downloaders {k : Fin W.downloadJobs} (h : (s.downloaders k).carries = some (i, x)) :
    1 ≤ s.withDownloaders DownloadPc.taken i := by
  rw [← DownloadPc.taken_of_carries h]
  exact le_sum_of s.downloaders k (DownloadPc.taken i)

theorem taken_parsers {k : Fin W.parseJobs} (h : (s.parsers k).carries = some (i, x)) :
    1 ≤ s.withParsers ParsePc.taken i := by
  rw [← ParsePc.taken_of_carries h]
  exact le_sum_of s.parsers k (ParsePc.taken i)

/-- An index stands at one place only, and there it has come one way. -/
theorem At.unique (hcount : s.CountedAt i) (hx : s.At i x) (hy : s.At i y) : x = y := by
  have hplace := hcount.place
  cases hx with
  | queued hx =>
    have hx := List.count_pos_iff.2 hx
    cases hy with
    | queued _ => rfl
    | downloader hy => have hy := taken_downloaders hy; omega
    | channel hy => have hy := one_le_inChannel hy; omega
    | parser hy => have hy := taken_parsers hy; omega
    | filled hy => omega
    | dropped hy => have hy := List.count_pos_iff.2 hy; omega
  | @downloader k _ hx =>
    have hx' := taken_downloaders hx
    cases hy with
    | queued hy => have hy := List.count_pos_iff.2 hy; omega
    | @downloader k' _ hy =>
      by_cases hk : k = k'
      · rw [← hk, hx] at hy
        simpa using hy
      · have hsum := add_le_sum_of s.downloaders hk (DownloadPc.taken i)
        rw [DownloadPc.taken_of_carries hx, DownloadPc.taken_of_carries hy] at hsum
        change 2 ≤ s.withDownloaders DownloadPc.taken i at hsum
        omega
    | channel hy => have hy := one_le_inChannel hy; omega
    | parser hy => have hy := taken_parsers hy; omega
    | filled hy => omega
    | dropped hy => have hy := List.count_pos_iff.2 hy; omega
  | channel hx =>
    have hx' := one_le_inChannel hx
    cases hy with
    | queued hy => have hy := List.count_pos_iff.2 hy; omega
    | downloader hy => have hy := taken_downloaders hy; omega
    | channel hy =>
      have hone : (s.channel.map (·.1)).count i ≤ 1 := by
        change s.inChannel i ≤ 1
        omega
      rw [eq_of_count_fst_le_one hone hx hy]
    | parser hy => have hy := taken_parsers hy; omega
    | filled hy => omega
    | dropped hy => have hy := List.count_pos_iff.2 hy; omega
  | @parser k _ hx =>
    have hx' := taken_parsers hx
    cases hy with
    | queued hy => have hy := List.count_pos_iff.2 hy; omega
    | downloader hy => have hy := taken_downloaders hy; omega
    | channel hy => have hy := one_le_inChannel hy; omega
    | @parser k' _ hy =>
      by_cases hk : k = k'
      · rw [← hk, hx] at hy
        simpa using hy
      · have hsum := add_le_sum_of s.parsers hk (ParsePc.taken i)
        rw [ParsePc.taken_of_carries hx, ParsePc.taken_of_carries hy] at hsum
        change 2 ≤ s.withParsers ParsePc.taken i at hsum
        omega
    | filled hy => omega
    | dropped hy => have hy := List.count_pos_iff.2 hy; omega
  | filled hx =>
    cases hy with
    | queued hy => have hy := List.count_pos_iff.2 hy; omega
    | downloader hy => have hy := taken_downloaders hy; omega
    | channel hy => have hy := one_le_inChannel hy; omega
    | parser hy => have hy := taken_parsers hy; omega
    | filled _ | dropped _ => rfl
  | dropped hx =>
    have hx := List.count_pos_iff.2 hx
    cases hy with
    | queued hy => have hy := List.count_pos_iff.2 hy; omega
    | downloader hy => have hy := taken_downloaders hy; omega
    | channel hy => have hy := one_le_inChannel hy; omega
    | parser hy => have hy := taken_parsers hy; omega
    | filled _ | dropped _ => rfl

end Place

end PipelineState

/-! ## Alone and among others -/

section Views
variable (W) (w : σ) (Same : W.Index → σ → σ → Prop)

/-- Where the index stands, the world is on its part as if it had come there alone. -/
def Workload.View (i : W.Index) : Standing B π ρ → σ → Prop
  | .waiting, u => Same i u w
  | .fetching p, u =>
    ∃ v, W.download.Reaches w (W.download.start (W.items.get i)) v p ∧ Same i u v
  | .fetched b, u => ∃ v, W.Downloads w i v (.ok b) ∧ Same i u v
  | .parsing b p, u => ∃ v v', W.Downloads w i v (.ok b) ∧
    W.parse.Reaches v (W.parse.start (b, W.items.get i)) v' p ∧ Same i u v'
  | .gone, _ => True

structure PipelineState.Views (s : PipelineState W) : Prop where
  view : ∀ {i x}, s.At i x → W.View w Same i x s.world
  downloads : ∀ {i d}, (i, d) ∈ s.downloadLog → ∃ v, W.Downloads w i v d
  parses : ∀ {i b r}, (i, b, r) ∈ s.parseLog →
    ∃ v v', W.Downloads w i v (.ok b) ∧ W.Parses v i b v' r

variable {W w Same} {s s' : PipelineState W}

theorem Workload.View.of_same {i : W.Index} {x : Standing B π ρ} {u u' : σ}
    (htrans : ∀ i {x y z}, Same i x y → Same i y z → Same i x z) (h : W.View w Same i x u)
    (hsame : Same i u' u) : W.View w Same i x u' := by
  cases x with
  | waiting => exact htrans i hsame h
  | fetching p =>
    obtain ⟨v, hreach, hv⟩ := h
    exact ⟨v, hreach, htrans i hsame hv⟩
  | fetched b =>
    obtain ⟨v, hfin, hv⟩ := h
    exact ⟨v, hfin, htrans i hsame hv⟩
  | parsing b p =>
    obtain ⟨v, v', hfin, hreach, hv⟩ := h
    exact ⟨v, v', hfin, hreach, htrans i hsame hv⟩
  | gone => trivial

namespace PipelineState

/-- A step that moves no index and leaves the world and the logs as they are. -/
theorem Views.stay (h : s.Views W w Same) (hat : ∀ i x, s'.At i x → s.At i x)
    (hworld : s'.world = s.world) (hdown : s'.downloadLog = s.downloadLog)
    (hparse : s'.parseLog = s.parseLog) : s'.Views W w Same where
  view hx := hworld ▸ h.view (hat _ _ hx)
  downloads hd := h.downloads (hdown ▸ hd)
  parses hp := h.parses (hparse ▸ hp)

/-- A step that moves the index `j`, which stands at `y` then. -/
theorem Views.move_to (h : s.Views W w Same)
    (htrans : ∀ i {x y z}, Same i x y → Same i y z → Same i x z) {j : W.Index}
    {y : Standing B π ρ} (hcount : s'.CountedAt j) (hj : s'.At j y)
    (hview : W.View w Same j y s'.world) (hat : ∀ i x, i ≠ j → s'.At i x → s.At i x)
    (hworld : ∀ i, i ≠ j → Same i s'.world s.world)
    (hdown : ∀ i d, (i, d) ∈ s'.downloadLog → (i, d) ∈ s.downloadLog ∨ ∃ v, W.Downloads w i v d)
    (hparse : ∀ i b r, (i, b, r) ∈ s'.parseLog → (i, b, r) ∈ s.parseLog ∨
      ∃ v v', W.Downloads w i v (.ok b) ∧ W.Parses v i b v' r) : s'.Views W w Same where
  view {i x} hx := by
    by_cases hij : i = j
    · subst hij
      rw [hx.unique hcount hj]
      exact hview
    · exact (h.view (hat i x hij hx)).of_same htrans (hworld i hij)
  downloads hd := (hdown _ _ hd).elim h.downloads id
  parses hp := (hparse _ _ _ hp).elim h.parses id

/-- An index that a download worker does not take or let go stands where it stood. -/
theorem At.of_downloaders {k : Fin W.downloadJobs} {pc' : DownloadPc W.Index B π} {i : W.Index}
    {x : Standing B π ρ} (hd : s'.downloaders = Function.update s.downloaders k pc')
    (hp : s'.parsers = s.parsers) (hpc : ∀ y : Standing B π ρ, pc'.carries ≠ some (i, y))
    (hqueue : i ∈ s'.queue → i ∈ s.queue) (hchannel : ∀ b, (i, b) ∈ s'.channel → (i, b) ∈ s.channel)
    (hfilled : s'.filled i = s.filled i) (hdropped : i ∈ s'.dropped → i ∈ s.dropped)
    (h : s'.At i x) : s.At i x := by
  cases h with
  | queued h => exact .queued (hqueue h)
  | @downloader j _ h =>
    rw [hd, Function.update_apply] at h
    split at h
    · exact absurd h (hpc _)
    · exact .downloader h
  | channel h => exact .channel (hchannel _ h)
  | parser h => exact .parser (hp ▸ h)
  | filled h => exact .filled (hfilled ▸ h)
  | dropped h => exact .dropped (hdropped h)

theorem At.of_parsers {k : Fin W.parseJobs} {pc' : ParsePc W.Index B R ρ} {i : W.Index}
    {x : Standing B π ρ} (hp : s'.parsers = Function.update s.parsers k pc')
    (hd : s'.downloaders = s.downloaders) (hpc : ∀ y : Standing B π ρ, pc'.carries ≠ some (i, y))
    (hqueue : s'.queue = s.queue) (hchannel : ∀ b, (i, b) ∈ s'.channel → (i, b) ∈ s.channel)
    (hfilled : s'.filled i = s.filled i) (hdropped : s'.dropped = s.dropped)
    (h : s'.At i x) : s.At i x := by
  cases h with
  | queued h => exact .queued (hqueue ▸ h)
  | downloader h => exact .downloader (hd ▸ h)
  | channel h => exact .channel (hchannel _ h)
  | @parser j _ h =>
    rw [hp, Function.update_apply] at h
    split at h
    · exact absurd h (hpc _)
    · exact .parser h
  | filled h => exact .filled (hfilled ▸ h)
  | dropped h => exact .dropped (hdropped ▸ h)

section Step
variable (h : s.Views W w Same) (hA : W.Apart w Same) {j : W.Index} {y : Standing B π ρ}
include h hA

/-- A download worker goes on with the index it has, or takes one from the queue. -/
theorem Views.downloader {k : Fin W.downloadJobs} {pc' : DownloadPc W.Index B π}
    (hpc : pc'.carries = some (j, y)) (hd : s'.downloaders = Function.update s.downloaders k pc')
    (hp : s'.parsers = s.parsers) (hqueue : ∀ i ∈ s'.queue, i ∈ s.queue)
    (hchannel : s'.channel = s.channel) (hslots : s'.slots = s.slots)
    (hdropped : s'.dropped = s.dropped) (hparse : s'.parseLog = s.parseLog)
    (hcount : s'.CountedAt j) (hview : W.View w Same j y s'.world)
    (hworld : ∀ i, i ≠ j → Same i s'.world s.world)
    (hdown : ∀ i d, (i, d) ∈ s'.downloadLog →
      (i, d) ∈ s.downloadLog ∨ ∃ v, W.Downloads w i v d) : s'.Views W w Same := by
  refine h.move_to hA.trans hcount (.downloader (k := k) ?_) hview (fun i x hij => ?_) hworld hdown
    (fun _ _ _ hr => .inl (hparse ▸ hr))
  · rw [hd, Function.update_self]
    exact hpc
  · refine At.of_downloaders hd hp (fun z hz => ?_) (hqueue i) (fun _ hb => hchannel ▸ hb)
      (by rw [filled, filled, hslots]) fun hi => hdropped ▸ hi
    rw [hpc] at hz
    exact hij (Prod.mk.inj (Option.some.inj hz)).1.symm

theorem Views.parser {k : Fin W.parseJobs} {pc' : ParsePc W.Index B R ρ}
    (hpc : pc'.carries = some (j, y)) (hp : s'.parsers = Function.update s.parsers k pc')
    (hd : s'.downloaders = s.downloaders) (hqueue : s'.queue = s.queue)
    (hchannel : ∀ p ∈ s'.channel, p ∈ s.channel) (hslots : s'.slots = s.slots)
    (hdropped : s'.dropped = s.dropped) (hdown : s'.downloadLog = s.downloadLog)
    (hcount : s'.CountedAt j) (hview : W.View w Same j y s'.world)
    (hworld : ∀ i, i ≠ j → Same i s'.world s.world)
    (hparse : ∀ i b r, (i, b, r) ∈ s'.parseLog → (i, b, r) ∈ s.parseLog ∨
      ∃ v v', W.Downloads w i v (.ok b) ∧ W.Parses v i b v' r) : s'.Views W w Same := by
  refine h.move_to hA.trans hcount (.parser (k := k) ?_) hview (fun i x hij => ?_) hworld
    (fun _ _ hd => .inl (hdown ▸ hd)) hparse
  · rw [hp, Function.update_self]
    exact hpc
  · refine At.of_parsers hp hd (fun z hz => ?_) hqueue (fun b => hchannel (i, b))
      (by rw [filled, filled, hslots]) hdropped
    rw [hpc] at hz
    exact hij (Prod.mk.inj (Option.some.inj hz)).1.symm

end Step

theorem Views.move (hA : W.Apart w Same) (m : PipelineMove s s') (h : s.Views W w Same)
    (hall : ∀ i, s.CountedAt i) : s'.Views W w Same := by
  have hcount : ∀ i, s'.CountedAt i := CountedAt.move m hall
  have hrefl : ∀ j : W.Index, ∀ i, i ≠ j → Same i s.world s.world := fun _ i _ => hA.refl i _
  cases m with
  | wait => exact h
  | cancel =>
    refine h.stay (fun i x hx => ?_) rfl rfl rfl
    cases hx with
    | queued hx => exact .queued hx
    | downloader hx => exact .downloader hx
    | channel hx => exact .channel hx
    | parser hx => exact .parser hx
    | filled hx => exact .filled hx
    | dropped hx => exact .dropped hx
  | noMore hk hq =>
    exact h.stay (fun i x => At.of_downloaders rfl rfl (by simp [DownloadPc.carries]) id
      (fun _ => id) rfl id) rfl rfl rfl
  | @pop k j rest hk hq =>
    have hj : s.At j .waiting := .queued (by rw [hq]; exact List.mem_cons_self)
    exact h.downloader hA (y := .waiting) rfl rfl rfl
      (fun i hi => by rw [hq]; exact List.mem_cons_of_mem _ hi) rfl rfl rfl rfl (hcount j)
      (h.view hj) (hrefl j) (fun _ _ => .inl)
  | @giveUp k j hk _ _ =>
    refine h.move_to hA.trans (j := j) (hcount j) (.dropped ?_) trivial (fun i x hij => ?_)
      (hrefl j) (fun _ _ => .inl) (fun _ _ _ => .inl)
    · exact List.mem_append_right _ List.mem_cons_self
    · exact At.of_downloaders rfl rfl (by simp [DownloadPc.carries]) id (fun _ => id) rfl
        (fun hi => by simpa [setDownloader, hij] using hi)
  | @begin k j hk =>
    have hj : s.At j .waiting := .downloader (k := k) (by rw [hk]; rfl)
    exact h.downloader hA (y := .fetching _) rfl rfl rfl (fun _ => id) rfl rfl rfl rfl (hcount j)
      ⟨w, .refl, h.view hj⟩ (hrefl j) (fun _ _ => .inl)
  | @fetch k j p w' p' hk hstep =>
    have hj : s.At j (.fetching p) := .downloader (k := k) (by rw [hk]; rfl)
    obtain ⟨v, hreach, hsame⟩ := h.view hj
    obtain ⟨hview, hothers⟩ := (hA.download j).next hreach hsame hstep
    exact h.downloader hA (y := .fetching _) rfl rfl rfl (fun _ => id) rfl rfl rfl rfl (hcount j)
      hview hothers (fun _ _ => .inl)
  | @fetched k j p w' b hk hstep =>
    have hj : s.At j (.fetching p) := .downloader (k := k) (by rw [hk]; rfl)
    obtain ⟨v, hreach, hsame⟩ := h.view hj
    obtain ⟨⟨v', hfin, hsame'⟩, hothers⟩ := (hA.download j).done hreach hsame hstep
    refine h.downloader hA (y := .fetched _) rfl rfl rfl (fun _ => id) rfl rfl rfl rfl (hcount j)
      ⟨v', hfin, hsame'⟩ hothers (fun i d hd => ?_)
    rcases List.mem_append.1 hd with hd | hd
    · exact .inl hd
    · cases List.mem_singleton.1 hd
      exact .inr ⟨v', hfin⟩
  | @failed k j p w' e hk hstep =>
    have hj : s.At j (.fetching p) := .downloader (k := k) (by rw [hk]; rfl)
    obtain ⟨v, hreach, hsame⟩ := h.view hj
    obtain ⟨⟨v', hfin, -⟩, hothers⟩ := (hA.download j).done hreach hsame hstep
    refine h.downloader hA (y := .gone) rfl rfl rfl (fun _ => id) rfl rfl rfl rfl (hcount j) trivial
      hothers (fun i d hd => ?_)
    rcases List.mem_append.1 hd with hd | hd
    · exact .inl hd
    · cases List.mem_singleton.1 hd
      exact .inr ⟨v', hfin⟩
  | @acquire k j b hk =>
    have hj : s.At j (.fetched b) := .downloader (k := k) (by rw [hk]; rfl)
    exact h.downloader hA (y := .fetched _) rfl rfl rfl (fun _ => id) rfl rfl rfl rfl (hcount j)
      (h.view hj) (hrefl j) (fun _ _ => .inl)
  | @send k j b hk _ =>
    have hj : s.At j (.fetched b) := .downloader (k := k) (by rw [hk]; rfl)
    refine h.move_to hA.trans (j := j) (hcount j) (.channel ?_) (h.view hj)
      (fun i x hij => ?_) (hrefl j) (fun _ _ => .inl) (fun _ _ _ => .inl)
    · exact List.mem_append_right _ List.mem_cons_self
    · exact At.of_downloaders rfl rfl (by simp [DownloadPc.carries]) id
        (fun b' hi => by simpa [setDownloader, hij] using hi) rfl id
  | @record k j e hk =>
    refine h.move_to hA.trans (j := j) (hcount j) (.filled (by simp [filled, setSlot])) trivial
      (fun i x hij => ?_) (hrefl j) (fun _ _ => .inl) (fun _ _ _ => .inl)
    exact At.of_downloaders rfl rfl (by simp [DownloadPc.carries]) id (fun _ => id)
      (by simp [filled, setSlot, setDownloader, hij]) id
  | lock hk _ | closed hk _ _ =>
    exact h.stay (fun i x => At.of_parsers rfl rfl (by simp [ParsePc.carries]) rfl (fun _ => id) rfl
      rfl) rfl rfl rfl
  | @receive k j b rest hk hc =>
    have hj : s.At j (.fetched b) := .channel (by rw [hc]; exact List.mem_cons_self)
    obtain ⟨v, hfin, hsame⟩ := h.view hj
    exact h.parser hA (y := .parsing b _) rfl rfl rfl rfl
      (fun p hp => by rw [hc]; exact List.mem_cons_of_mem _ hp) rfl rfl rfl (hcount j)
      ⟨v, v, hfin, .refl, hsame⟩ (hrefl j) (fun _ _ _ => .inl)
  | @parse k j b p w' p' hk hstep =>
    have hj : s.At j (.parsing b p) := .parser (k := k) (by rw [hk]; rfl)
    obtain ⟨v, v', hfin, hreach, hsame⟩ := h.view hj
    obtain ⟨⟨v'', hreach', hsame'⟩, hothers⟩ := (hA.parse hfin).next hreach hsame hstep
    exact h.parser hA (y := .parsing b _) rfl rfl rfl rfl (fun _ => id) rfl rfl rfl (hcount j)
      ⟨v, v'', hfin, hreach', hsame'⟩ hothers (fun _ _ _ => .inl)
  | @parsed k j b p w' r hk hstep =>
    have hj : s.At j (.parsing b p) := .parser (k := k) (by rw [hk]; rfl)
    obtain ⟨v, v', hfin, hreach, hsame⟩ := h.view hj
    obtain ⟨⟨v'', hfin', -⟩, hothers⟩ := (hA.parse hfin).done hreach hsame hstep
    refine h.parser hA (y := .gone) rfl rfl rfl rfl (fun _ => id) rfl rfl rfl (hcount j) trivial
      hothers (fun i b' r' hr => ?_)
    rcases List.mem_append.1 hr with hr | hr
    · exact .inl hr
    · cases List.mem_singleton.1 hr
      exact .inr ⟨v, v'', hfin, hfin'⟩
  | @fill k j r hk =>
    refine h.move_to hA.trans (j := j) (hcount j) (.filled (by simp [filled, setSlot])) trivial
      (fun i x hij => ?_) (hrefl j) (fun _ _ => .inl) (fun _ _ _ => .inl)
    exact At.of_parsers rfl rfl (by simp [ParsePc.carries]) rfl (fun _ => id)
      (by simp [filled, setSlot, setParser, hij]) rfl

theorem views_init (hA : W.Apart w Same) : (init W w).Views W w Same where
  view hx := by
    cases hx with
    | queued _ => exact hA.refl _ w
    | downloader h => cases h
    | channel h => cases h
    | parser h => cases h
    | filled h => cases h
    | dropped h => cases h
  downloads h := by cases h
  parses h := by cases h

end PipelineState

theorem views_run (hA : W.Apart w Same) (as : List (PipelineAction W)) :
    (run pipelineStep (PipelineState.init W w) as).Views W w Same := by
  have hinv : (∀ i, (run pipelineStep (PipelineState.init W w) as).CountedAt i) ∧
      (run pipelineStep (PipelineState.init W w) as).Views W w Same :=
    run_invariant (P := fun s : PipelineState W => (∀ i, s.CountedAt i) ∧ s.Views W w Same)
      ⟨PipelineState.countedAt_init w, PipelineState.views_init hA⟩ (fun s a h =>
        have m := pipelineStep_move s a
        ⟨PipelineState.CountedAt.move m h.1, PipelineState.Views.move hA m h.2 h.1⟩) as
  exact hinv.2

/-- Among others the calls answer what they answer alone. -/
theorem PipelineState.Views.alone (h : s.Views W w Same) {i : W.Index}
    {a : Except String (B × R)} (ha : s.Answers i a) : W.Alone w i a := by
  cases a with
  | error e =>
    have hmem : (i, .error e) ∈ s.downloadLog.filter (·.1 = i) := by
      rw [ha.1]
      exact List.mem_cons_self
    exact h.downloads (List.mem_filter.1 hmem).1
  | ok p =>
    have hmem : (i, p.1, p.2) ∈ s.parseLog.filter (·.1 = i) := by
      rw [ha.2]
      exact List.mem_cons_self
    exact h.parses (List.mem_filter.1 hmem).1

end Views

/-! ## One by one -/

section Serial
variable {w : σ} {Same : W.Index → σ → σ → Prop}

theorem Workload.Alone.unique {i : W.Index} {a a' : Except String (B × R)} (h : W.Alone w i a)
    (h' : W.Alone w i a') : a = a' := by
  cases a with
  | error e =>
    obtain ⟨v, hv⟩ := h
    cases a' with
    | error e' =>
      obtain ⟨v', hv'⟩ := h'
      rw [Except.error.inj (hv.unique hv').2]
    | ok p =>
      obtain ⟨v', w', hv', -⟩ := h'
      cases (hv.unique hv').2
  | ok p =>
    obtain ⟨v, w₁, hv, hp⟩ := h
    cases a' with
    | error e' =>
      obtain ⟨v', hv'⟩ := h'
      cases (hv.unique hv').2
    | ok p' =>
      obtain ⟨v', w₂, hv', hp'⟩ := h'
      obtain ⟨rfl, hb⟩ := hv.unique hv'
      have hb : p.1 = p'.1 := Except.ok.inj hb
      rw [← hb] at hp'
      rw [Prod.ext hb (hp.unique hp').2]

theorem OneByOne.eq_mapM (hA : W.Apart w Same) {answers : W.Index → Except String (B × R)}
    (halone : ∀ i, W.Alone w i (answers i)) {u : σ} {is : List W.Index}
    {res : Except String (List (B × R))} (h : OneByOne W u is res) (hnodup : is.Nodup)
    (hsame : ∀ i ∈ is, Same i u w) : res = is.mapM answers := by
  induction h with
  | nil => rfl
  | @failed u i is v e hd =>
    obtain ⟨⟨v', hd', -⟩, -⟩ :=
      hd.of_same (hA.download i) hA.trans .refl (hsame i List.mem_cons_self)
    have hi : W.Alone w i (.error e) := ⟨v', hd'⟩
    have ha : answers i = .error e := (halone i).unique hi
    rw [List.mapM_cons, ha]
    rfl
  | @next u i is v u' b r res hd hp _ ih =>
    obtain ⟨hi, hrest⟩ := List.nodup_cons.1 hnodup
    obtain ⟨⟨v', hd', hv⟩, hdothers⟩ :=
      hd.of_same (hA.download i) hA.trans .refl (hsame i List.mem_cons_self)
    obtain ⟨⟨w', hp', -⟩, hpothers⟩ := hp.of_same (hA.parse hd') hA.trans .refl hv
    have hthis : W.Alone w i (.ok (b, r)) := ⟨v', w', hd', hp'⟩
    have ha : answers i = .ok (b, r) := (halone i).unique hthis
    have htail : ∀ j ∈ is, Same j u' w := by
      intro j hj
      have hne : j ≠ i := fun heq => hi (heq ▸ hj)
      exact hA.trans j (hpothers j hne)
        (hA.trans j (hdothers j hne) (hsame j (List.mem_cons_of_mem _ hj)))
    rw [List.mapM_cons, ha, ih hrest htail]
    cases is.mapM answers <;> rfl

theorem mapM_map {α β γ : Type} (f : α → Except String β) (g : β → γ) (l : List α) :
    (l.mapM fun a => (f a).map g) = (l.mapM f).map (List.map g) := by
  induction l with
  | nil => rfl
  | cons a l ih =>
    rw [List.mapM_cons, List.mapM_cons, ih]
    cases f a with
    | error e => rfl
    | ok b => cases l.mapM f <;> rfl

/-- **Apart**: whatever the schedule, the merge is what processing the items one by one answers. -/
theorem mergeSlots_oneByOne (hA : W.Apart w Same) (as : List (PipelineAction W))
    (hend : (run pipelineStep (PipelineState.init W w) as).finished)
    (hcancel : (run pipelineStep (PipelineState.init W w) as).cancel = false ∨
      W.checksCancel = false) (missing : W.Index → List (Option B × R))
    {res : Except String (List (B × R))}
    (hres : OneByOne W w (List.finRange W.items.length) res) :
    mergeSlots (run pipelineStep (PipelineState.init W w) as) missing =
      res.map (List.map fun p => (some p.1, p.2)) := by
  obtain ⟨answers, h⟩ := exists_answers w as hend hcancel
  have halone : ∀ i, W.Alone w i (answers i) := fun i => (views_run hA as).alone (h i).1
  rw [mergeSlots_of_shows fun i => (h i).2, mapM_map,
    hres.eq_mapM hA halone (List.nodup_finRange _) fun i _ => hA.refl i w]

end Serial

end Apart

end Inim
