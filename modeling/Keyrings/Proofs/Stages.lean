import Keyrings.Proofs.Attempts
import Keyrings.Proofs.Footprint
import Keyrings.Proofs.Reload

/-! A renewal request by request. What is left of one, after any number of its requests, is one of a
few routines. As long as it has no lock they wait for the marker; once it has the lock they load the
file, draw a key, write a temporary file, move it and give the lock back. Under the lock the tree is
the one with the new marker but for one temporary file, until a single request puts the new file in
the place of the old one. -/

namespace Keyrings

namespace Routine

variable {α : Type}

def looks : Routine α → Bool
  | .ask .now _ => true
  | _ => false

/-- Whether the next request is to move a file over a path, and a machine does it. -/
def moves (target : Path) (m : Machine) : Routine α → Bool
  | .ask (.rename p q) _ => q = target && (m.files.rename m.cwd p q).isOk
  | _ => false

end Routine

namespace Machine

theorem answer_cwd (m : Machine) (r : Request) : (m.answer r).2.cwd = m.cwd := by
  have hchange : ∀ outcome, (m.change outcome).2.cwd = m.cwd := by
    intro outcome
    cases outcome <;> rfl
  cases r <;> first | rfl | exact hchange _

/-- Nobody else comes to change files because of a request. -/
theorem Undisturbed.answer {m : Machine} (h : m.Undisturbed) (r : Request) :
    (m.answer r).2.Undisturbed := by
  have hchange : ∀ outcome, (m.change outcome).2.Undisturbed := by
    intro outcome
    cases outcome <;> exact h.of_eq rfl id
  cases r with
  | draw count => exact h.of_eq rfl fun hq => hq.next.2
  | now => exact h.of_eq rfl id
  | sleep time => exact h.of_eq rfl id
  | uuid => exact h.of_eq rfl id
  | read path => exact h
  | store path bytes => exact h.of_eq rfl id
  | create path mode => exact hchange _
  | rename source target => exact hchange _
  | remove path => exact hchange _
  | makeDirectory path mode => exact hchange _

end Machine

theorem Routine.step_cwd {α : Type} (r : Routine α) (m : Machine) : (r.step m).2.cwd = m.cwd := by
  cases r with
  | done a => rfl
  | ask request next => exact m.answer_cwd request

theorem Routine.run_cwd {α : Type} (r : Routine α) (m : Machine) : (r.run m).2.cwd = m.cwd := by
  induction r generalizing m with
  | done a => rfl
  | ask request next ih => rw [run_ask, ih, m.answer_cwd]

theorem Machine.Undisturbed.step {α : Type} {m : Machine} (h : m.Undisturbed) (r : Routine α) :
    (r.step m).2.Undisturbed := by
  cases r with
  | done a => exact h
  | ask request next => exact h.answer request

theorem Machine.Undisturbed.run {α : Type} {m : Machine} (h : m.Undisturbed) (r : Routine α) :
    (r.run m).2.Undisturbed := by
  induction r generalizing m with
  | done a => exact h
  | ask request next ih => exact ih _ (h.answer request)

namespace Keyring

/-! ### What is left of a renewal -/

section Rest

variable (ring : Keyring)

/-- What a renewal returns, by what became of the file. -/
def settled : Except Fault (List Key) → Except Fault Unit × Keyring
  | .error fault => (.error fault, ring)
  | .ok keys => (.ok (), { ring with keys := keys })

def releasing (outcome : Except Fault (List Key)) : Routine (Except Fault Unit × Keyring) :=
  .ask (.remove ring.marker) fun _ => .done (ring.settled outcome)

def clearing (u : Uuid) (e : FileError) : Routine (Except Fault Unit × Keyring) :=
  .ask (.remove (temporaryFor ring.file u)) fun _ => ring.releasing (.error (.file e))

def moving (keys : List Key) (u : Uuid) : Routine (Except Fault Unit × Keyring) :=
  .ask (.rename (temporaryFor ring.file u) ring.file) fun
    | .ok _ => ring.releasing (.ok keys)
    | .error e => ring.clearing u e

def storing (keys : List Key) (u : Uuid) : Routine (Except Fault Unit × Keyring) :=
  .ask (.store (temporaryFor ring.file u) (KeyFile.serialize keys)) fun
    | .ok _ => ring.moving keys u
    | .error e => ring.clearing u e

def creating (keys : List Key) (u : Uuid) : Routine (Except Fault Unit × Keyring) :=
  .ask (.create (temporaryFor ring.file u) privateFileMode) fun
    | .ok _ => ring.storing keys u
    | .error e => ring.clearing u e

def naming (keys : List Key) : Routine (Except Fault Unit × Keyring) :=
  .ask .uuid fun u => ring.creating keys u

def sealing (now : Instant) (old : List Key) (id : Int32) : Routine (Except Fault Unit × Keyring) :=
  .ask (.draw secretLength) fun
    | .error fault => ring.releasing (.error fault)
    | .ok secret => ring.naming (old ++ [⟨id, now, secret.bytes⟩])

/-- Draws the identifier of a new key, with a number of attempts left. -/
def drawing (now : Instant) (old : List Key) (n : Nat) : Routine (Except Fault Unit × Keyring) :=
  (drawId old n).bind fun
    | .error fault => ring.releasing (.error fault)
    | .ok id => ring.sealing now old id

def loading (now : Instant) : Routine (Except Fault Unit × Keyring) :=
  .ask (.read ring.file) fun
    | .ok contents => ring.drawing now (KeyFile.parse contents now) maxIdAttempts
    | .error _ => ring.drawing now [] maxIdAttempts

/-- Uses a lock and gives it back. -/
def holding (now : Instant) (lock : Lock) : Routine (Except Fault Unit × Keyring) :=
  (extendFile ring.file now).bind fun outcome =>
    lock.release.bind fun _ => .done (ring.settled outcome)

def waiting (now : Instant) (w : Lock.Wait) : Routine (Except Fault Unit × Keyring) :=
  (w.rest ring.marker ring.policy.timeout).bind fun
    | .error fault => .done (.error (lockFault fault), ring)
    | .ok lock => ring.holding now lock

theorem renew_eq : ring.renew = .ask .now fun now =>
    ring.waiting now (.start ring.policy.maxTimeouts) := by
  simp only [renew, waiting, holding, Lock.Wait.rest_start, Lock.acquire, Routine.request,
    Routine.bind_eq, Routine.ask_bind, Routine.done_bind]
  refine congrArg _ (funext fun now => congrArg _ (funext fun outcome => ?_))
  cases outcome with
  | error fault => rfl
  | ok lock =>
    refine congrArg (Routine.bind (extendFile ring.file now)) (funext fun outcome => ?_)
    cases outcome <;> rfl

theorem drawing_succ (now : Instant) (old : List Key) (n : Nat) : ring.drawing now old (n + 1) =
    .ask (.draw idLength) fun
      | .error fault => ring.releasing (.error fault)
      | .ok block =>
        match usableId? old block.bytes with
        | some id => ring.sealing now old id
        | none => ring.drawing now old n := by
  simp only [drawing, drawId, Routine.request, Routine.bind_eq, Routine.ask_bind,
    Routine.done_bind]
  refine congrArg _ (funext fun drawn => ?_)
  cases drawn with
  | error fault => rfl
  | ok block =>
    simp only
    cases usableId? old block.bytes <;> rfl

/-- Once a key is made, the file is replaced and the lock given back. -/
theorem naming_eq (keys : List Key) : ((replace ring.file (KeyFile.serialize keys)).bind fun
    | .error e => .done (.error (.file e))
    | .ok _ => .done (.ok keys)).bind (fun outcome =>
      (Lock.mk ring.marker).release.bind fun _ => .done (ring.settled outcome)) =
    ring.naming keys := by
  simp only [replace, naming, Routine.request, Routine.bind_eq, Routine.ask_bind,
    Routine.done_bind]
  apply congrArg (Routine.ask _)
  funext u
  apply congrArg (Routine.ask _)
  funext created
  cases created with
  | error e => rfl
  | ok _ =>
    apply congrArg (Routine.ask _)
    funext stored
    cases stored with
    | error e => rfl
    | ok _ =>
      apply congrArg (Routine.ask _)
      funext moved
      cases moved <;> rfl

/-- Once the keys are loaded, a key is made, and then the file is replaced. -/
theorem drawing_eq (now : Instant) (old : List Key) : ((freshKey old now).bind fun
    | .error fault => .done (.error fault)
    | .ok key => (replace ring.file (KeyFile.serialize (old ++ [key]))).bind fun
      | .error e => .done (.error (.file e))
      | .ok _ => .done (.ok (old ++ [key]))).bind (fun outcome =>
        (Lock.mk ring.marker).release.bind fun _ => .done (ring.settled outcome)) =
    ring.drawing now old maxIdAttempts := by
  simp only [freshKey, drawing, Routine.bind_eq, Routine.bind_assoc]
  refine congrArg (Routine.bind _) (funext fun drawn => ?_)
  cases drawn with
  | error fault => rfl
  | ok id =>
    simp only [sealing, Routine.request, Routine.ask_bind, Routine.done_bind]
    apply congrArg (Routine.ask _)
    funext secret
    cases secret with
    | error fault => rfl
    | ok secret => exact ring.naming_eq _

/-- The lock is used as told. -/
theorem holding_eq (now : Instant) : ring.holding now ⟨ring.marker⟩ = ring.loading now := by
  simp only [holding, extendFile, load, loading, Routine.request, Routine.bind_eq,
    Routine.ask_bind, Routine.done_bind]
  apply congrArg (Routine.ask _)
  funext contents
  cases contents with
  | error e => exact ring.drawing_eq now []
  | ok bytes => exact ring.drawing_eq now (KeyFile.parse bytes now)

end Rest

theorem IsOf.settled {ring : Keyring} {directory : Path} {context : List Char}
    (h : ring.IsOf directory context) (outcome : Except Fault (List Key)) :
    (ring.settled outcome).2.IsOf directory context := by
  cases outcome with
  | error fault => exact h
  | ok keys => exact h.with_keys keys

/-! ### Under the lock -/

def Extended (ring : Keyring) (now : Instant) (cwd : Location) (v : FileTree) (keys : List Key) :
    Prop :=
  ∃ key, IsFresh (saved v cwd ring.file now) now key ∧ keys = saved v cwd ring.file now ++ [key]

/-- What is left of a renewal that has the lock, and what it has made of the tree `v` that it took
the lock in. -/
inductive Inside (ring : Keyring) (now : Instant) (cwd : Location) (v : FileTree) :
    Routine (Except Fault Unit × Keyring) → FileTree → Prop
  | loads : Inside ring now cwd v (ring.loading now) v
  | drawsId (n : Nat) : Inside ring now cwd v (ring.drawing now (saved v cwd ring.file now) n) v
  | drawsSecret {id : Int32} (hid : 0 ≤ id.toInt)
      (hnew : hasId (saved v cwd ring.file now) id = false) :
      Inside ring now cwd v (ring.sealing now (saved v cwd ring.file now) id) v
  | names {keys : List Key} (hkeys : ring.Extended now cwd v keys) :
      Inside ring now cwd v (ring.naming keys) v
  | creates {keys : List Key} {u : Uuid} (hkeys : ring.Extended now cwd v keys) :
      Inside ring now cwd v (ring.creating keys u) v
  | stores {keys : List Key} {u : Uuid} {t : FileTree} (hkeys : ring.Extended now cwd v keys)
      (hsame : FileTree.SameBut cwd [temporaryFor ring.file u] v t)
      (hfile : t.FileAt cwd (temporaryFor ring.file u) privateFileMode []) :
      Inside ring now cwd v (ring.storing keys u) t
  | moves {keys : List Key} {u : Uuid} {t : FileTree} (hkeys : ring.Extended now cwd v keys)
      (hsame : FileTree.SameBut cwd [temporaryFor ring.file u] v t)
      (hfile : t.FileAt cwd (temporaryFor ring.file u) privateFileMode
        (KeyFile.serialize keys)) :
      Inside ring now cwd v (ring.moving keys u) t
  | clears {u : Uuid} {e : FileError} {t : FileTree}
      (hsame : FileTree.SameBut cwd [temporaryFor ring.file u] v t) :
      Inside ring now cwd v (ring.clearing u e) t
  | failed {fault : Fault} {u : Uuid} {t : FileTree}
      (hsame : FileTree.SameBut cwd [temporaryFor ring.file u] v t) :
      Inside ring now cwd v (ring.releasing (.error fault)) t
  | written {keys : List Key} {u : Uuid} {t : FileTree} (hkeys : ring.Extended now cwd v keys)
      (hsame : FileTree.SameBut cwd [ring.file, temporaryFor ring.file u] v t)
      (hfile : t.FileAt cwd ring.file privateFileMode (KeyFile.serialize keys)) :
      Inside ring now cwd v (ring.releasing (.ok keys)) t

/-- What a request under the lock does: something at the temporary file only, or it puts the new
file in its place, or it ends the renewal. -/
inductive Advance (ring : Keyring) (now : Instant) (v : FileTree) (m : Machine)
    (r : Routine (Except Fault Unit × Keyring)) :
    Routine (Except Fault Unit × Keyring) × Machine → Prop
  | on {r' : Routine (Except Fault Unit × Keyring)} {m' : Machine} {u : Uuid}
      (hnext : ring.Inside now m.cwd v r' m'.files)
      (hsame : FileTree.SameBut m.cwd [temporaryFor ring.file u] m.files m'.files)
      (hlooks : r.looks = false) (hremoves : r.removes ring.marker = false)
      (hmoves : r.moves ring.file m = false) : Advance ring now v m r (r', m')
  | written {keys : List Key} {m' : Machine} {u : Uuid} (hkeys : ring.Extended now m.cwd v keys)
      (hbefore : FileTree.SameBut m.cwd [temporaryFor ring.file u] v m.files)
      (hfile : m'.files.FileAt m.cwd ring.file privateFileMode (KeyFile.serialize keys))
      (hnext : ring.Inside now m.cwd v (ring.releasing (.ok keys)) m'.files)
      (hlooks : r.looks = false) (hremoves : r.removes ring.marker = false)
      (hmoves : r.moves ring.file m = true) :
      Advance ring now v m r (ring.releasing (.ok keys), m')
  | ended {outcome : Except Fault (List Key)} {m' : Machine} (hr : r = ring.releasing outcome)
      (hsame : FileTree.SameBut m.cwd [ring.marker] m.files m'.files) :
      Advance ring now v m r (.done (ring.settled outcome), m')

theorem Advance.of_files_eq {ring : Keyring} {now : Instant} {v t : FileTree} {m m' : Machine}
    {r r' : Routine (Except Fault Unit × Keyring)} (ht : m.files = t)
    (hnext : ring.Inside now m.cwd v r' t) (hfiles : m'.files = m.files) (hlooks : r.looks = false)
    (hremoves : r.removes ring.marker = false) (hmoves : r.moves ring.file m = false) :
    Advance ring now v m r (r', m') :=
  .on (u := m.uuids 0) (by rwa [hfiles, ht]) (hfiles ▸ .refl ..) hlooks hremoves hmoves

/-- A temporary file does not have the name of the marker. -/
theorem removes_clearing {ring : Keyring} {directory : Path} {context : List Char}
    (h : ring.IsOf directory context) (u : Uuid) (e : FileError) :
    (ring.clearing u e).removes ring.marker = false := by
  have hne : temporaryFor ring.file u ≠ ring.marker := by
    intro he
    rw [h.marker_eq, h.temporary_eq] at he
    have htext := congrArg Path.text he
    exact markerEnding_ne_temporaryEnding u (List.append_cancel_left htext).symm
  simp only [clearing, Routine.removes, hne, decide_false]

/-! ### What stays -/

namespace IsOf

variable {ring : Keyring} {directory : Path} {context : List Char} (h : ring.IsOf directory context)
  {t u : FileTree} {cwd : Location} {paths : List Path} {mode : Mode} {bytes : List UInt8}
include h

/-- The file has a place of its own beside the marker and temporary files. -/
theorem file_ne_beside {p : Path} {k l : Location}
    (hp : p = ring.marker ∨ ∃ x, p = temporaryFor ring.file x)
    (hk : t.locate cwd ring.file = .ok (.name k)) (hl : t.locate cwd p = .ok (.name l)) :
    k ≠ l := by
  rcases hp with rfl | ⟨x, rfl⟩
  · exact h.file_ne_marker hk hl
  · exact h.file_ne_temporary hk hl

/-- They all have places only where the directory stands. -/
theorem walk_of_beside {p : Path} {l : Location}
    (hp : p = ring.marker ∨ ∃ x, p = temporaryFor ring.file x)
    (hl : t.locate cwd p = .ok (.name l)) :
    ∃ d, t.walk (directory.start cwd) directory.names = .ok d := by
  rcases hp with rfl | ⟨x, rfl⟩
  · rw [h.marker_join] at hl
    obtain ⟨d, hd, -⟩ := FileTree.locate_join h.isName_marker hl
    exact ⟨d, hd⟩
  · rw [h.temporary_join] at hl
    obtain ⟨d, hd, -⟩ := FileTree.locate_join (h.isName_temporary x) hl
    exact ⟨d, hd⟩

/-- The file stays when the marker and temporary files come and go. -/
theorem contents_of_sameBut (hsame : FileTree.SameBut cwd paths t u)
    (hpaths : ∀ p ∈ paths, p = ring.marker ∨ ∃ x, p = temporaryFor ring.file x) :
    u.contents cwd ring.file = t.contents cwd ring.file := by
  apply h.contents_congr hsame.directories
  intro k hk
  exact hsame.lookup_eq k fun p hp hpk => h.file_ne_beside (hpaths p hp) hk hpk rfl

theorem entryAt_of_sameBut (hsame : FileTree.SameBut cwd paths t u)
    (hpaths : ∀ p ∈ paths, p = ring.marker ∨ ∃ x, p = temporaryFor ring.file x) :
    u.entryAt cwd ring.file = t.entryAt cwd ring.file := by
  cases hw : t.walk (directory.start cwd) directory.names with
  | ok d =>
    have hplaces : ∀ p ∈ paths, ∀ k l, t.locate cwd p = .ok (.name k) →
        t.locate cwd ring.file = .ok (.name l) → k ≠ l :=
      fun p hp k l hk hl => (h.file_ne_beside (hpaths p hp) hl hk).symm
    rw [h.file_eq] at hplaces ⊢
    exact hsame.entryAt_eq h.isName hw hplaces
  | error e =>
    -- Where the directory is missing none of the paths has a place.
    refine FileTree.entryAt_congr (fun l => hsame.lookup_eq l fun p hp hl => ?_) cwd ring.file
    obtain ⟨d, hd⟩ := h.walk_of_beside (hpaths p hp) hl
    rw [hw] at hd
    contradiction

theorem file_of_sameBut (hsame : FileTree.SameBut cwd paths t u)
    (hpaths : ∀ p ∈ paths, p = ring.marker ∨ ∃ x, p = temporaryFor ring.file x)
    (hf : t.FileAt cwd ring.file mode bytes) : u.FileAt cwd ring.file mode bytes :=
  hsame.fileAt hf fun p hp _ _ hk hl => (h.file_ne_beside (hpaths p hp) hl hk).symm

/-- The marker stays when files come and go beside it. -/
theorem marker_of_sameBut (hsame : FileTree.SameBut cwd paths t u)
    (hpaths : ∀ p ∈ paths, p = ring.file ∨ ∃ x, p = temporaryFor ring.file x)
    (hf : t.FileAt cwd ring.marker mode bytes) : u.FileAt cwd ring.marker mode bytes := by
  refine hsame.fileAt hf fun p hp k l hk hl => ?_
  rcases hpaths p hp with rfl | ⟨x, rfl⟩
  · exact h.file_ne_marker hk hl
  · exact (h.marker_ne_temporary hl hk).symm

end IsOf

theorem Inside.sameBut {ring : Keyring} {now : Instant} {cwd : Location} {v t : FileTree}
    {r : Routine (Except Fault Unit × Keyring)} (hin : ring.Inside now cwd v r t) (x : Uuid) :
    ∃ u, FileTree.SameBut cwd [ring.file, temporaryFor ring.file u] v t := by
  cases hin with
  | loads | drawsId | drawsSecret | names | creates => exact ⟨x, .refl ..⟩
  | stores _ hsame _ | moves _ hsame _ | clears hsame | failed hsame =>
    exact ⟨_, hsame.mono (List.subset_cons_self ..)⟩
  | written _ hsame _ => exact ⟨_, hsame⟩

theorem Inside.marker {ring : Keyring} {directory : Path} {context : List Char}
    (h : ring.IsOf directory context) {now : Instant} {cwd : Location} {v t : FileTree}
    {r : Routine (Except Fault Unit × Keyring)} (hin : ring.Inside now cwd v r t) {mode : Mode}
    {bytes : List UInt8} (hmarker : v.FileAt cwd ring.marker mode bytes) :
    t.FileAt cwd ring.marker mode bytes := by
  obtain ⟨u, hsame⟩ := hin.sameBut ⟨0⟩
  refine h.marker_of_sameBut hsame (fun p hp => ?_) hmarker
  rcases List.mem_pair.mp hp with rfl | rfl
  · exact Or.inl rfl
  · exact Or.inr ⟨u, rfl⟩

/-- A renewal that has the lock is not over. -/
theorem Inside.ne_done {ring : Keyring} {now : Instant} {cwd : Location} {v t : FileTree}
    {r : Routine (Except Fault Unit × Keyring)} (hin : ring.Inside now cwd v r t)
    (a : Except Fault Unit × Keyring) : r ≠ .done a := by
  rintro rfl
  generalize hr : Routine.done a = r at hin
  cases hin with
  | drawsId n =>
    cases n with
    | zero => cases hr
    | succ n =>
      rw [drawing_succ] at hr
      cases hr
  | _ => cases hr

section Step

variable {ring : Keyring} {directory : Path} {context : List Char} (h : ring.IsOf directory context)
  {now : Instant} {v : FileTree} {m : Machine}
include h

theorem releasing_step (outcome : Except Fault (List Key)) :
    Advance ring now v m (ring.releasing outcome) ((ring.releasing outcome).step m) := by
  have hstep : (ring.releasing outcome).step m =
      (.done (ring.settled outcome), (m.answer (.remove ring.marker)).2) := rfl
  rw [hstep]
  refine .ended rfl ?_
  simp only [Machine.answer]
  cases hr : m.files.remove m.cwd ring.marker with
  | error e => exact .refl m.cwd _ m.files
  | ok u => exact FileTree.sameBut_remove (by simp) h.marker_endsInSeparator hr

/-- One request under the lock. -/
theorem Inside.step {r : Routine (Except Fault Unit × Keyring)}
    (hin : ring.Inside now m.cwd v r m.files) (hq : m.random.Quiet) :
    Advance ring now v m r (r.step m) := by
  generalize ht : m.files = t at hin
  cases hin with
  | loads =>
    have hstep : (ring.loading now).step m =
        (ring.drawing now (saved v m.cwd ring.file now) maxIdAttempts, m) := by
      simp only [loading, Routine.step, Machine.answer, saved, FileTree.contents, ht]
      cases v.read m.cwd ring.file <;> rfl
    rw [hstep]
    exact .of_files_eq ht (.drawsId _) rfl rfl rfl rfl
  | drawsId n =>
    cases n with
    | zero => exact releasing_step h _
    | succ n =>
      have hfiles := (m.drawn_draw idLength).files_eq hq
      rw [drawing_succ]
      simp only [Routine.step]
      cases (m.answer (.draw idLength)).1 with
      | error fault =>
        exact .of_files_eq ht (.failed (u := m.uuids 0) (.refl ..)) hfiles rfl rfl rfl
      | ok block =>
        simp only
        cases hid : usableId? (saved v m.cwd ring.file now) block.bytes with
        | none => exact .of_files_eq ht (.drawsId n) hfiles rfl rfl rfl
        | some id =>
          obtain ⟨hnonneg, hnew⟩ := usableId?_eq_some hid
          exact .of_files_eq ht (.drawsSecret hnonneg hnew) hfiles rfl rfl rfl
  | drawsSecret hid hnew =>
    have hfiles := (m.drawn_draw secretLength).files_eq hq
    simp only [sealing, Routine.step]
    cases (m.answer (.draw secretLength)).1 with
    | error fault => exact .of_files_eq ht (.failed (u := m.uuids 0) (.refl ..)) hfiles rfl rfl rfl
    | ok secret =>
      have hkeys : ring.Extended now m.cwd v _ :=
        ⟨⟨_, now, secret.bytes⟩, ⟨rfl, hid, hnew, secret.length_bytes⟩, rfl⟩
      exact .of_files_eq ht (.names hkeys) hfiles rfl rfl rfl
  | names hkeys => exact .of_files_eq ht (.creates hkeys) rfl rfl rfl rfl
  | @creates keys u hkeys =>
    simp only [creating, Routine.step, Machine.answer]
    cases hc : m.files.create m.cwd (temporaryFor ring.file u) privateFileMode with
    | error e => exact .of_files_eq ht (.clears (.refl ..)) rfl rfl rfl rfl
    | ok w =>
      obtain ⟨hsame, hfile⟩ := FileTree.sameBut_create (List.mem_singleton_self _)
        (h.temporary_endsInSeparator u) hc
      exact .on (.stores hkeys (ht ▸ hsame) hfile) hsame rfl rfl rfl
  | @stores keys u _ hkeys hsame hfile =>
    obtain ⟨hsame', hfile'⟩ := FileTree.sameBut_store (List.mem_singleton_self _) (ht ▸ hfile)
      (KeyFile.serialize keys)
    exact .on (.moves hkeys (hsame.trans (ht ▸ hsame')) hfile') hsame' rfl rfl rfl
  | @moves keys u _ hkeys hsame hfile =>
    simp only [moving, Routine.step, Machine.answer]
    cases hr : m.files.rename m.cwd (temporaryFor ring.file u) ring.file with
    | error e =>
      exact .of_files_eq ht (.clears hsame) rfl rfl rfl
        (by simp [Routine.moves, hr, Except.isOk, Except.toBool])
    | ok w =>
      obtain ⟨hsame', hfile'⟩ := FileTree.sameBut_rename (List.mem_cons_of_mem _
        (List.mem_singleton_self _)) List.mem_cons_self (h.temporary_endsInSeparator u)
        h.file_endsInSeparator (ht ▸ hfile) hr
      have hboth := (hsame.mono (List.subset_cons_self ring.file _)).trans (ht ▸ hsame')
      exact .written hkeys (ht ▸ hsame) hfile' (.written hkeys hboth hfile') rfl rfl
        (by simp [Routine.moves, hr, Except.isOk, Except.toBool])
  | @clears u e _ hsame =>
    have hremoves := removes_clearing h u e
    simp only [clearing, Routine.step, Machine.answer]
    cases hr : m.files.remove m.cwd (temporaryFor ring.file u) with
    | error e' => exact .of_files_eq ht (.failed hsame) rfl rfl hremoves rfl
    | ok w =>
      have hsame' := FileTree.sameBut_remove (List.mem_singleton_self _)
        (h.temporary_endsInSeparator u) hr
      exact .on (.failed (hsame.trans (ht ▸ hsame'))) hsame' rfl hremoves rfl
  | failed hsame => exact releasing_step h _
  | written hkeys hsame hfile => exact releasing_step h _

end Step

/-! ### Before the lock -/

/-- What is left of a renewal that does not have the lock yet. -/
inductive Outside (ring : Keyring) (now : Instant) : Routine (Except Fault Unit × Keyring) → Prop
  | looks : Outside ring now ring.renew
  | waits (w : Lock.Wait) : Outside ring now (ring.waiting now w)

/-- What a request before the lock does: it looks at the clock, waits, takes the lock in the tree
that it makes the marker in, breaks a marker, or gives up. -/
inductive Approach (ring : Keyring) (now : Instant) (m : Machine) :
    Routine (Except Fault Unit × Keyring) → Routine (Except Fault Unit × Keyring) × Machine → Prop
  | looked {m' : Machine} (hfiles : m'.files = m.files) : Approach ring now m ring.renew
      (ring.waiting m.clock.now (.start ring.policy.maxTimeouts), m')
  | waited {w w' : Lock.Wait} {m' : Machine} (hfiles : m'.files = m.files)
      (hcreates : (ring.waiting now w).creates ring.marker m = false)
      (hremoves : (ring.waiting now w).removes ring.marker = false) :
      Approach ring now m (ring.waiting now w) (ring.waiting now w', m')
  | entered {w : Lock.Wait} {m' : Machine}
      (hcreate : m.files.create m.cwd ring.marker privateFileMode = .ok m'.files)
      (hcreates : (ring.waiting now w).creates ring.marker m = true)
      (hremoves : (ring.waiting now w).removes ring.marker = false) :
      Approach ring now m (ring.waiting now w) (ring.loading now, m')
  | broke {m' : Machine} (hsame : FileTree.SameBut m.cwd [ring.marker] m.files m'.files)
      (hremoves : (ring.waiting now .remove).removes ring.marker = true) :
      Approach ring now m (ring.waiting now .remove) (ring.waiting now .create, m')
  | refused {w : Lock.Wait} {m' : Machine} {fault : Fault} (hfiles : m'.files = m.files)
      (hcreates : (ring.waiting now w).creates ring.marker m = false)
      (hremoves : (ring.waiting now w).removes ring.marker = false) :
      Approach ring now m (ring.waiting now w) (.done (.error fault, ring), m')

theorem waiting_step (ring : Keyring) (now : Instant) (w : Lock.Wait) (m : Machine) :
    (ring.waiting now w).step m =
      (((w.rest ring.marker ring.policy.timeout).step m).1.bind (fun
        | .error fault => .done (.error (lockFault fault), ring)
        | .ok lock => ring.holding now lock),
      ((w.rest ring.marker ring.policy.timeout).step m).2) := by
  cases w <;> rfl

theorem waiting_ne_done (ring : Keyring) (now : Instant) (w : Lock.Wait)
    (a : Except Fault Unit × Keyring) : ring.waiting now w ≠ .done a := by
  cases w <;> exact fun h => by cases h

theorem looks_waiting (ring : Keyring) (now : Instant) (w : Lock.Wait) :
    (ring.waiting now w).looks = false := by
  cases w <;> rfl

theorem moves_waiting (ring : Keyring) (now : Instant) (w : Lock.Wait) (m : Machine) :
    (ring.waiting now w).moves ring.file m = false := by
  cases w <;> rfl

theorem creates_attempt (ring : Keyring) (now : Instant) (n : Nat) (m : Machine) :
    (ring.waiting now (.attempt n)).creates ring.marker m =
      (m.files.create m.cwd ring.marker privateFileMode).isOk := by
  simp [waiting, Lock.Wait.rest_attempt, Routine.creates]

theorem creates_create (ring : Keyring) (now : Instant) (m : Machine) :
    (ring.waiting now .create).creates ring.marker m =
      (m.files.create m.cwd ring.marker privateFileMode).isOk := by
  simp [waiting, Lock.Wait.rest_create, Routine.creates]

/-- One request before the lock. -/
theorem Outside.step {ring : Keyring} {now : Instant} {m : Machine}
    {r : Routine (Except Fault Unit × Keyring)} (hout : ring.Outside now r) (hu : m.Undisturbed)
    (hsep : ring.marker.endsInSeparator = false) : Approach ring now m r (r.step m) := by
  cases hout with
  | looks =>
    have hstep : ring.renew.step m =
        (ring.waiting m.clock.now (.start ring.policy.maxTimeouts), (m.answer .now).2) := by
      rw [renew_eq]
      rfl
    rw [hstep]
    exact .looked rfl
  | waits w =>
    rw [waiting_step]
    have hstep := Lock.Wait.rest_step ring.marker ring.policy.timeout w m
    generalize (w.rest ring.marker ring.policy.timeout).step m = x at hstep ⊢
    cases hstep with
    | @taken n u hc =>
      simp only [Routine.done_bind, holding_eq]
      refine .entered hc ?_ rfl
      rw [creates_attempt, hc]
      rfl
    | @refused n e hc =>
      show ring.Approach now m _ (ring.waiting now (.sleep n), m)
      refine .waited rfl ?_ rfl
      rw [creates_attempt, hc]
      rfl
    | @slept n =>
      show ring.Approach now m _ (ring.waiting now (.start n), _)
      exact .waited (hu.others_eq _ _) rfl rfl
    | removed hr =>
      refine .broke (FileTree.sameBut_remove (List.mem_singleton_self _) hsep hr) ?_
      simp [waiting, Lock.Wait.rest_remove, Routine.removes]
    | unremoved hr =>
      refine .broke (.refl ..) ?_
      simp [waiting, Lock.Wait.rest_remove, Routine.removes]
    | @replaced u hc =>
      simp only [Routine.done_bind, holding_eq]
      refine .entered hc ?_ rfl
      rw [creates_create, hc]
      rfl
    | @stuck e hc =>
      refine .refused (w := .create) rfl ?_ rfl
      rw [creates_create, hc]
      rfl

end Keyring

end Keyrings
