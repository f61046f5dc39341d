import Mathlib.Data.List.Basic

/-!
The `StreamHandler` of `CommandExecuter.RunCommand2` in `utils/command_executer.py`: it
collects what `os.read` returns from one output stream of the command and hands every
complete line to `line_consumer`, and the unterminated rest at the end of the stream.
Then the `poll` loop that drives one handler per stream, whatever order the events of the
two streams come in. Strings are lists of characters; the `pobject` argument of the
consumer, the timeout and the process itself are left out.
-/

set_option autoImplicit false

namespace ToolchainUtils.Utils

/-- `s.find(c)`: the index of the first `c` in `s`, or `-1`. -/
def pyFind (s : List Char) (c : Char) : Int := if c ∈ s then s.indexOf c else -1

/-- A call `line_consumer(line=..., output=..., pobject=...)`. -/
structure ConsumerCall where
  line : List Char
  output : String
  deriving DecidableEq, Repr

/-- A `StreamHandler`: the name of its stream and `_buf`. -/
structure StreamHandler where
  name : String
  buf : List Char
  deriving DecidableEq, Repr

/-- `StreamHandler(pobject, fd, name, line_consumer)`. -/
def StreamHandler.new (name : String) : StreamHandler := ⟨name, []⟩

@[simp] theorem StreamHandler.name_new (name : String) : (StreamHandler.new name).name = name := rfl

/-- The `while p >= 0` loop of `notify_line`, from the buffer `buf` and the index `p` of
its first newline: the consumer calls it makes and the buffer it leaves. -/
def notifyLineLoop (name : String) (buf : List Char) (p : Int) : List ConsumerCall × List Char :=
  if p ≥ 0 then
    let call : ConsumerCall := ⟨buf.take (p.toNat + 1), name⟩
    if p < buf.length - 1 then
      let rest := buf.drop (p.toNat + 1)
      let r := notifyLineLoop name rest (pyFind rest '\n')
      (call :: r.1, r.2)
    else ([call], [])
  else ([], buf)
termination_by buf.length
decreasing_by simp only [List.length_drop]; omega

/-- `notify_line`. -/
def StreamHandler.notifyLine (h : StreamHandler) : List ConsumerCall × StreamHandler :=
  let r := notifyLineLoop h.name h.buf (pyFind h.buf '\n')
  (r.1, { h with buf := r.2 })

/-- `read_and_notify_line`, where `os.read(fd, 1024)` returned `t`. -/
def StreamHandler.readAndNotifyLine (h : StreamHandler) (t : List Char) :
    List ConsumerCall × StreamHandler :=
  StreamHandler.notifyLine { h with buf := h.buf ++ t }

/-- `notify_eos`: the last line may not end with a newline. -/
def StreamHandler.notifyEos (h : StreamHandler) : List ConsumerCall × StreamHandler :=
  if h.buf ≠ [] then ([⟨h.buf, h.name⟩], { h with buf := [] }) else ([], h)

/-- The handler fed the reads `chunks`, one `read_and_notify_line` each. -/
def StreamHandler.readAll (h : StreamHandler) :
    List (List Char) → List ConsumerCall × StreamHandler
  | [] => ([], h)
  | t :: ts =>
    let r := h.readAndNotifyLine t
    let r' := r.2.readAll ts
    (r.1 ++ r'.1, r'.2)

/-- Every consumer call of a handler fed the reads `chunks` and then the end of its stream. -/
def StreamHandler.run (h : StreamHandler) (chunks : List (List Char)) : List ConsumerCall :=
  let r := h.readAll chunks
  r.1 ++ r.2.notifyEos.1

/-- The lines of a stream as the documentation of `RunCommand2` has them: the text cut
after every newline, each piece keeping its newline, then the rest if it is not empty.
`cur` is the piece read so far. -/
def cutLinesFrom (cur : List Char) : List Char → List (List Char)
  | [] => if cur = [] then [] else [cur]
  | c :: s => if c = '\n' then (cur ++ ['\n']) :: cutLinesFrom [] s else cutLinesFrom (cur ++ [c]) s

def cutLines (s : List Char) : List (List Char) := cutLinesFrom [] s

theorem cutLinesFrom_append (cur b x : List Char) (hb : '\n' ∉ b) :
    cutLinesFrom cur (b ++ x) = cutLinesFrom (cur ++ b) x := by
  induction b generalizing cur with
  | nil => simp
  | cons c b ih =>
    have hc : c ≠ '\n' := fun h => hb (h ▸ List.mem_cons_self _ _)
    rw [List.cons_append, cutLinesFrom, if_neg hc, ih _ fun h => hb (List.mem_cons_of_mem _ h)]
    simp

theorem flatten_cutLinesFrom (cur s : List Char) : (cutLinesFrom cur s).flatten = cur ++ s := by
  induction s generalizing cur with
  | nil => by_cases h : cur = [] <;> simp [cutLinesFrom, h]
  | cons c s ih => by_cases h : c = '\n' <;> simp [cutLinesFrom, h, ih]

theorem pyFind_cases (s : List Char) :
    ('\n' ∉ s ∧ pyFind s '\n' = -1) ∨
      ∃ pre post, s = pre ++ '\n' :: post ∧ '\n' ∉ pre ∧ pyFind s '\n' = pre.length := by
  induction s with
  | nil => exact .inl ⟨List.not_mem_nil _, rfl⟩
  | cons c s ih =>
    by_cases hc : c = '\n'
    · subst hc
      exact .inr ⟨[], s, rfl, List.not_mem_nil _, by simp [pyFind, List.indexOf_cons_self]⟩
    · rcases ih with ⟨hs, -⟩ | ⟨pre, post, rfl, hpre, hp⟩
      · have hcs : '\n' ∉ c :: s := by simp [hs, Ne.symm hc]
        exact .inl ⟨hcs, if_neg hcs⟩
      · have hm : '\n' ∈ pre ++ '\n' :: post := by simp
        refine .inr ⟨c :: pre, post, rfl, by simp [hpre, Ne.symm hc], ?_⟩
        rw [pyFind, if_pos hm] at hp
        rw [pyFind, if_pos (List.mem_cons_of_mem _ hm), List.indexOf_cons_ne _ hc,
          List.length_cons, Nat.succ_eq_add_one]
        omega

theorem cutLinesFrom_newline (pre y : List Char) (hpre : '\n' ∉ pre) :
    cutLinesFrom [] (pre ++ '\n' :: y) = (pre ++ ['\n']) :: cutLinesFrom [] y := by
  rw [cutLinesFrom_append [] pre _ hpre]
  simp [cutLinesFrom]

theorem notifyLineLoop_spec (name : String) (buf : List Char) :
    let r := notifyLineLoop name buf (pyFind buf '\n')
    '\n' ∉ r.2 ∧ (∀ c ∈ r.1, c.output = name) ∧
      ∀ x, r.1.map (·.line) ++ cutLinesFrom r.2 x = cutLines (buf ++ x) := by
  induction buf using WellFounded.induction (measure List.length).wf with
  | h buf ih =>
  rcases pyFind_cases buf with ⟨hs, hp⟩ | ⟨pre, post, rfl, hpre, hp⟩
  · -- no newline: nothing is handed on
    rw [hp, notifyLineLoop, if_neg (by omega)]
    refine ⟨hs, by simp, fun x => ?_⟩
    rw [cutLines, cutLinesFrom_append [] buf x hs]
    simp
  · -- a first line `pre` and a newline, then `post`
    have hlen : (pre ++ '\n' :: post).length = pre.length + post.length + 1 := by simp; omega
    have hsplit : pre ++ '\n' :: post = (pre ++ ['\n']) ++ post := by simp
    have hline : (pre ++ '\n' :: post).take (pre.length + 1) = pre ++ ['\n'] := by
      rw [hsplit]; exact List.take_left' (by simp)
    have hrest : (pre ++ '\n' :: post).drop (pre.length + 1) = post := by
      rw [hsplit]; exact List.drop_left' (by simp)
    rw [hp, notifyLineLoop, if_pos (by omega)]
    simp only [Int.toNat_ofNat, hline, hrest]
    split_ifs with hmore
    · obtain ⟨h₁, h₂, h₃⟩ := ih post (show post.length < (pre ++ _ :: post).length by omega)
      refine ⟨h₁, ?_, fun x => ?_⟩
      · simpa using h₂
      · rw [cutLines, List.append_assoc, List.cons_append, cutLinesFrom_newline pre _ hpre]
        simp only [List.map_cons, List.cons_append, h₃ x, cutLines]
    · have hpost : post = [] := List.eq_nil_of_length_eq_zero (by omega)
      subst hpost
      exact ⟨List.not_mem_nil _, by simp, fun x => by
        simp [cutLines, cutLinesFrom_newline pre x hpre]⟩

@[simp] theorem StreamHandler.name_readAndNotifyLine (h : StreamHandler) (t : List Char) :
    (h.readAndNotifyLine t).2.name = h.name := rfl

theorem readAndNotifyLine_spec (h : StreamHandler) (t : List Char) (hb : '\n' ∉ h.buf) :
    let r := h.readAndNotifyLine t
    '\n' ∉ r.2.buf ∧ r.2.name = h.name ∧ (∀ c ∈ r.1, c.output = h.name) ∧
      ∀ x, r.1.map (·.line) ++ cutLinesFrom r.2.buf x = cutLinesFrom h.buf (t ++ x) := by
  obtain ⟨h₁, h₂, h₃⟩ := notifyLineLoop_spec h.name (h.buf ++ t)
  refine ⟨h₁, rfl, h₂, fun x => ?_⟩
  have hx := cutLinesFrom_append [] h.buf (t ++ x) hb
  rw [List.nil_append] at hx
  rw [← hx, ← List.append_assoc]
  exact h₃ x

theorem readAll_spec (chunks : List (List Char)) :
    ∀ h : StreamHandler, '\n' ∉ h.buf →
      let r := h.readAll chunks
      '\n' ∉ r.2.buf ∧ r.2.name = h.name ∧ (∀ c ∈ r.1, c.output = h.name) ∧
        ∀ x, r.1.map (·.line) ++ cutLinesFrom r.2.buf x = cutLinesFrom h.buf (chunks.flatten ++ x) := by
  induction chunks with
  | nil => exact fun h hb => ⟨hb, rfl, by simp [StreamHandler.readAll], fun x => by simp [StreamHandler.readAll]⟩
  | cons t ts ih =>
    intro h hb
    obtain ⟨h₁, h₂, h₃, h₄⟩ := readAndNotifyLine_spec h t hb
    obtain ⟨k₁, k₂, k₃, k₄⟩ := ih _ h₁
    refine ⟨k₁, k₂.trans h₂, ?_, fun x => ?_⟩
    · simp only [StreamHandler.readAll, List.mem_append]
      rintro c (hc | hc)
      exacts [h₃ c hc, (k₃ c hc).trans h₂]
    · simp only [StreamHandler.readAll, List.map_append, List.append_assoc, k₄, List.flatten_cons]
      rw [← h₄]

theorem notifyEos_lines (h : StreamHandler) :
    h.notifyEos.1.map (·.line) = cutLinesFrom h.buf [] ∧ ∀ c ∈ h.notifyEos.1, c.output = h.name := by
  by_cases hb : h.buf = [] <;> simp [StreamHandler.notifyEos, cutLinesFrom, hb]

theorem lines_run_new (name : String) (chunks : List (List Char)) :
    ((StreamHandler.new name).run chunks).map (·.line) = cutLines chunks.flatten := by
  have h := (readAll_spec chunks (StreamHandler.new name) (List.not_mem_nil _)).2.2.2 []
  rw [List.append_nil] at h
  rw [StreamHandler.run, List.map_append, (notifyEos_lines _).1, h]
  rfl

theorem streamHandler_lines_cut_input (name : String) (chunks : List (List Char)) :
    ((StreamHandler.new name).run chunks).map (·.line) = cutLines chunks.flatten ∧
      (∀ c ∈ (StreamHandler.new name).run chunks, c.output = name) ∧
      (((StreamHandler.new name).run chunks).map (·.line)).flatten = chunks.flatten := by
  obtain ⟨-, h₂, h₃, -⟩ := readAll_spec chunks (StreamHandler.new name) (List.not_mem_nil _)
  refine ⟨lines_run_new name chunks, ?_, by rw [lines_run_new, cutLines, flatten_cutLinesFrom]; rfl⟩
  simp only [StreamHandler.run, List.mem_append]
  rintro c (hc | hc)
  exacts [h₃ c hc, ((notifyEos_lines _).2 c hc).trans h₂]

section PollLoop

/-- What `poll.poll` reports for a registered descriptor: readable (`POLLIN`, `POLLPRI`),
where `os.read(fd, 1024)` then returns `data`, or hung up (`POLLHUP`, `POLLERR`,
`POLLNVAL`). -/
inductive PollEvent where
  | readable (fd : Nat) (data : List Char)
  | hangup (fd : Nat)
  deriving DecidableEq, Repr

def PollEvent.fd : PollEvent → Nat
  | .readable fd _ => fd
  | .hangup fd => fd

/-- `handlermap`: the registered descriptors and their handlers. -/
abbrev HandlerMap := List (Nat × StreamHandler)

/-- `handlermap[fd]`. -/
def handlerOf (hm : HandlerMap) (fd : Nat) : Option StreamHandler :=
  (hm.find? (·.1 = fd)).map (·.2)

/-- The handlers `RunCommand2` registers: one for stdout, and one for stderr unless
`join_stderr`. -/
def initialHandlers (outfd errfd : Nat) (joinStderr : Bool) : HandlerMap :=
  if joinStderr then [(outfd, .new "stdout")] else [(outfd, .new "stdout"), (errfd, .new "stderr")]

theorem mem_initialHandlers {outfd errfd : Nat} {joinStderr : Bool} {p : Nat × StreamHandler}
    (hp : p ∈ initialHandlers outfd errfd joinStderr) :
    p = (outfd, .new "stdout") ∨ p = (errfd, .new "stderr") := by
  cases joinStderr <;> simp_all [initialHandlers]

/-- One `(fd, evt)` of the loop of `RunCommand2`: the handler of `fd` reads, or notifies the
end of its stream and is unregistered. A descriptor with no handler is a `KeyError`. -/
def pollDispatch (hm : HandlerMap) (e : PollEvent) : Except String (HandlerMap × List ConsumerCall) :=
  match handlerOf hm e.fd with
  | none => .error "KeyError"
  | some h =>
    match e with
    | .readable fd data =>
      let r := h.readAndNotifyLine data
      .ok (hm.map fun p => if p.1 = fd then (fd, r.2) else p, r.1)
    | .hangup fd => .ok (hm.filter (·.1 ≠ fd), h.notifyEos.1)

/-- The `while len(handlermap)` loop over the events `poll` reports, in order. -/
def pollLoop : HandlerMap → List PollEvent → Except String (HandlerMap × List ConsumerCall)
  | hm, [] => .ok (hm, [])
  | hm, e :: es => do
    let (hm₁, c₁) ← pollDispatch hm e
    let (hm₂, c₂) ← pollLoop hm₁ es
    return (hm₂, c₁ ++ c₂)

/-- The events of the descriptor `fd`. -/
def streamEvents (fd : Nat) (es : List PollEvent) : List PollEvent := es.filter (·.fd = fd)

@[simp] theorem streamEvents_nil (fd : Nat) : streamEvents fd [] = [] := rfl

@[simp] theorem streamEvents_cons (fd : Nat) (e : PollEvent) (es : List PollEvent) :
    streamEvents fd (e :: es) = if e.fd = fd then e :: streamEvents fd es else streamEvents fd es := by
  simp [streamEvents, List.filter_cons]

@[simp] theorem handlerOf_nil (a : Nat) : handlerOf [] a = none := rfl

@[simp] theorem handlerOf_cons (p : Nat × StreamHandler) (hm : HandlerMap) (a : Nat) :
    handlerOf (p :: hm) a = if p.1 = a then some p.2 else handlerOf hm a := by
  unfold handlerOf
  rw [List.find?_cons]
  split <;> simp_all

theorem handlerOf_mem {hm : HandlerMap} {fd : Nat} {h : StreamHandler}
    (hh : handlerOf hm fd = some h) : (fd, h) ∈ hm := by
  induction hm with
  | nil => cases hh
  | cons p hm ih =>
    rw [handlerOf_cons] at hh
    split_ifs at hh with hp
    · cases hh; exact hp ▸ List.mem_cons_self _ _
    · exact List.mem_cons_of_mem _ (ih hh)

theorem handlerOf_replace (hm : HandlerMap) (fd a : Nat) (h' : StreamHandler) :
    handlerOf (hm.map fun p => if p.1 = fd then (fd, h') else p) a =
      if a = fd then (handlerOf hm a).map fun _ => h' else handlerOf hm a := by
  induction hm with
  | nil => split_ifs <;> rfl
  | cons p hm ih =>
    rw [List.map_cons, handlerOf_cons, handlerOf_cons, ih]
    by_cases ha : a = fd
    · subst ha; split_ifs <;> simp_all
    · split_ifs <;> simp_all

theorem handlerOf_filter (hm : HandlerMap) (fd a : Nat) :
    handlerOf (hm.filter (·.1 ≠ fd)) a = if a = fd then none else handlerOf hm a := by
  induction hm with
  | nil => split_ifs <;> rfl
  | cons p hm ih =>
    rw [List.filter_cons, handlerOf_cons]
    by_cases ha : a = fd
    · subst ha; split_ifs <;> simp_all
    · split_ifs <;> simp_all

theorem pollDispatch_readable {hm hm₁ : HandlerMap} {fd : Nat} {t : List Char}
    {c : List ConsumerCall} (h : pollDispatch hm (.readable fd t) = .ok (hm₁, c)) :
    ∃ g, handlerOf hm fd = some g ∧
      hm₁ = (hm.map fun p => if p.1 = fd then (fd, (g.readAndNotifyLine t).2) else p) ∧
      c = (g.readAndNotifyLine t).1 := by
  simp only [pollDispatch, PollEvent.fd] at h
  split at h
  · cases h
  · cases h; exact ⟨_, ‹_›, rfl, rfl⟩

theorem pollDispatch_hangup {hm hm₁ : HandlerMap} {fd : Nat} {c : List ConsumerCall}
    (h : pollDispatch hm (.hangup fd) = .ok (hm₁, c)) :
    ∃ g, handlerOf hm fd = some g ∧ hm₁ = hm.filter (·.1 ≠ fd) ∧ c = g.notifyEos.1 := by
  simp only [pollDispatch, PollEvent.fd] at h
  split at h
  · cases h
  · cases h; exact ⟨_, ‹_›, rfl, rfl⟩

theorem pollLoop_cons_ok {hm hm' : HandlerMap} {e : PollEvent} {es : List PollEvent}
    {calls : List ConsumerCall} (h : pollLoop hm (e :: es) = .ok (hm', calls)) :
    ∃ hm₁ c₁ c₂, pollDispatch hm e = .ok (hm₁, c₁) ∧ pollLoop hm₁ es = .ok (hm', c₂) ∧
      calls = c₁ ++ c₂ := by
  simp only [pollLoop, bind, Except.bind] at h
  split at h
  · cases h
  · split at h
    · cases h
    · cases h; exact ⟨_, _, _, ‹_›, ‹_›, rfl⟩

theorem notifyLine_outputs (h : StreamHandler) : ∀ c ∈ h.notifyLine.1, c.output = h.name :=
  (notifyLineLoop_spec h.name h.buf).2.1

/-- Every other handler of the map has a name other than `n`. -/
def OthersNamedApart (a : Nat) (n : String) (hm : HandlerMap) : Prop :=
  ∀ p ∈ hm, p.1 ≠ a → p.2.name ≠ n

theorem othersNamedApart_replace {a fd : Nat} {n : String} {hm : HandlerMap} {g : StreamHandler}
    (hn : OthersNamedApart a n hm) (hg : fd = a ∨ g.name ≠ n) :
    OthersNamedApart a n (hm.map fun p => if p.1 = fd then (fd, g) else p) := by
  intro p hp hpa
  obtain ⟨q, hq, rfl⟩ := List.mem_map.1 hp
  split_ifs at hpa ⊢
  · exact hg.resolve_left hpa
  · exact hn q hq hpa

theorem othersNamedApart_filter {a fd : Nat} {n : String} {hm : HandlerMap}
    (hn : OthersNamedApart a n hm) : OthersNamedApart a n (hm.filter (·.1 ≠ fd)) :=
  fun p hp hpa => hn p (List.mem_of_mem_filter hp) hpa

theorem pollDispatch_other {a : Nat} {n : String} {hm hm₁ : HandlerMap} {e : PollEvent}
    {c : List ConsumerCall} (hn : OthersNamedApart a n hm) (ha : e.fd ≠ a)
    (h : pollDispatch hm e = .ok (hm₁, c)) :
    handlerOf hm₁ a = handlerOf hm a ∧ OthersNamedApart a n hm₁ ∧ ∀ x ∈ c, x.output ≠ n := by
  cases e with
  | readable fd t =>
    obtain ⟨g, hh, rfl, rfl⟩ := pollDispatch_readable h
    have hg : g.name ≠ n := hn _ (handlerOf_mem hh) ha
    exact ⟨by rw [handlerOf_replace]; exact if_neg (Ne.symm ha), othersNamedApart_replace hn (.inr hg),
      fun x hx => (notifyLine_outputs _ x hx).trans_ne hg⟩
  | hangup fd =>
    obtain ⟨g, hh, rfl, rfl⟩ := pollDispatch_hangup h
    have hg : g.name ≠ n := hn _ (handlerOf_mem hh) ha
    exact ⟨by rw [handlerOf_filter]; exact if_neg (Ne.symm ha), othersNamedApart_filter hn,
      fun x hx => ((notifyEos_lines g).2 x hx).trans_ne hg⟩

theorem pollLoop_ended {a : Nat} {n : String} (es : List PollEvent) :
    ∀ {hm hm' : HandlerMap} {calls : List ConsumerCall}, OthersNamedApart a n hm →
      handlerOf hm a = none → streamEvents a es = [] → pollLoop hm es = .ok (hm', calls) →
      calls.filter (·.output = n) = [] := by
  induction es with
  | nil => intro hm hm' calls _ _ _ h; cases h; rfl
  | cons e es ih =>
    intro hm hm' calls hn hnone hs h
    obtain ⟨hm₁, c₁, c₂, hp, hq, rfl⟩ := pollLoop_cons_ok h
    have hea : e.fd ≠ a := fun he => by simp [he] at hs
    obtain ⟨h₁, h₂, h₃⟩ := pollDispatch_other hn hea hp
    rw [List.filter_append, List.filter_eq_nil_iff.2 fun x hx => by simpa using h₃ x hx,
      ih h₂ (h₁.trans hnone) (by simpa [hea] using hs) hq]
    rfl

theorem pollLoop_stream {a : Nat} (es : List PollEvent) :
    ∀ {hm hm' : HandlerMap} {calls : List ConsumerCall} {h : StreamHandler}
      {chunks : List (List Char)}, OthersNamedApart a h.name hm → handlerOf hm a = some h →
      streamEvents a es = chunks.map (.readable a) ++ [.hangup a] →
      pollLoop hm es = .ok (hm', calls) → calls.filter (·.output = h.name) = h.run chunks := by
  induction es with
  | nil => intro hm hm' calls h chunks _ _ hs; cases chunks <;> simp at hs
  | cons e es ih =>
    intro hm hm' calls h chunks hn hh hs hrun
    obtain ⟨hm₁, c₁, c₂, hp, hq, rfl⟩ := pollLoop_cons_ok hrun
    rw [List.filter_append]
    by_cases hea : e.fd = a
    · cases e with
      | readable fd t =>
        -- a read of `a`: the handler reads, and every call it makes is named `h.name`
        obtain rfl : fd = a := hea
        obtain ⟨g, hg, rfl, rfl⟩ := pollDispatch_readable hp
        obtain rfl : h = g := Option.some.inj (hh.symm.trans hg)
        cases chunks with
        | nil => simp [PollEvent.fd] at hs
        | cons t' chunks =>
          obtain ⟨rfl, hs'⟩ : t = t' ∧ streamEvents fd es = chunks.map (.readable fd) ++ [.hangup fd] := by
            simpa [PollEvent.fd] using hs
          have hrest := ih (h := (h.readAndNotifyLine t).2) (othersNamedApart_replace hn (.inl rfl))
            (by rw [handlerOf_replace, if_pos rfl, hh]; rfl) hs' hq
          rw [StreamHandler.name_readAndNotifyLine] at hrest
          rw [hrest, List.filter_eq_self.2 fun x hx => by simpa using notifyLine_outputs _ x hx]
          simp only [StreamHandler.run, StreamHandler.readAll, List.append_assoc]
      | hangup fd =>
        -- the end of `a`: no read of `a` is left, and no later call is named `h.name`
        obtain rfl : fd = a := hea
        obtain ⟨g, hg, rfl, rfl⟩ := pollDispatch_hangup hp
        obtain rfl : h = g := Option.some.inj (hh.symm.trans hg)
        obtain ⟨rfl, hs'⟩ : chunks = [] ∧ streamEvents fd es = [] := by
          cases chunks <;> simp [PollEvent.fd] at hs ⊢; exact hs
        rw [pollLoop_ended es (othersNamedApart_filter hn) (by rw [handlerOf_filter, if_pos rfl]) hs' hq,
          List.filter_eq_self.2 fun x hx => by simpa using (notifyEos_lines h).2 x hx]
        simp [StreamHandler.run, StreamHandler.readAll]
    · -- another descriptor's event
      obtain ⟨h₁, h₂, h₃⟩ := pollDispatch_other hn hea hp
      rw [List.filter_eq_nil_iff.2 fun x hx => by simpa using h₃ x hx,
        ih h₂ (h₁.trans hh) (by simpa [hea] using hs) hq]
      rfl

theorem runCommand2_stream_lines (outfd errfd : Nat) (hfd : outfd ≠ errfd) (joinStderr : Bool)
    (es : List PollEvent) (hm' : HandlerMap) (calls : List ConsumerCall)
    (hrun : pollLoop (initialHandlers outfd errfd joinStderr) es = .ok (hm', calls))
    (outChunks errChunks : List (List Char))
    (hout : streamEvents outfd es = outChunks.map (.readable outfd) ++ [.hangup outfd]) :
    (calls.filter (·.output = "stdout")).map (·.line) = cutLines outChunks.flatten ∧
      (joinStderr = false →
        streamEvents errfd es = errChunks.map (.readable errfd) ++ [.hangup errfd] →
        (calls.filter (·.output = "stderr")).map (·.line) = cutLines errChunks.flatten) := by
  refine ⟨?_, fun hj herr => ?_⟩
  · have := pollLoop_stream (h := .new "stdout") es (fun p hp hpa => ?_) ?_ hout hrun
    · rw [StreamHandler.name_new] at this
      rw [this, lines_run_new]
    · rcases mem_initialHandlers hp with rfl | rfl
      exacts [absurd rfl hpa, by simp]
    · cases joinStderr <;> simp [initialHandlers]
  · subst hj
    have := pollLoop_stream (h := .new "stderr") es (fun p hp hpa => ?_) ?_ herr hrun
    · rw [StreamHandler.name_new] at this
      rw [this, lines_run_new]
    · rcases mem_initialHandlers hp with rfl | rfl
      exacts [by simp, absurd rfl hpa]
    · simp [initialHandlers, hfd]

/-- stdout and stderr read in turn, stderr ending first. -/
def twoStreamTrace : List PollEvent :=
  [.readable 1 ['a', '\n', 'b'], .readable 2 ['x'], .readable 1 ['c', '\n'], .hangup 2, .hangup 1]

unseal notifyLineLoop in
theorem interleaved_streams_keep_lines :
    pollLoop (initialHandlers 1 2 false) twoStreamTrace =
        .ok ([], [⟨['a', '\n'], "stdout"⟩, ⟨['b', 'c', '\n'], "stdout"⟩, ⟨['x'], "stderr"⟩]) ∧
      [['a', '\n'], ['b', 'c', '\n']] = cutLines [['a', '\n', 'b'], ['c', '\n']].flatten ∧
      [['x']] = cutLines [['x']].flatten := by
  have hrun : pollLoop (initialHandlers 1 2 false) twoStreamTrace =
      .ok ([], [⟨['a', '\n'], "stdout"⟩, ⟨['b', 'c', '\n'], "stdout"⟩, ⟨['x'], "stderr"⟩]) := rfl
  obtain ⟨h₁, h₂⟩ := runCommand2_stream_lines 1 2 (by decide) false twoStreamTrace _ _ hrun
    [['a', '\n', 'b'], ['c', '\n']] [['x']] rfl
  exact ⟨hrun, h₁, h₂ rfl rfl⟩

end PollLoop

end ToolchainUtils.Utils
