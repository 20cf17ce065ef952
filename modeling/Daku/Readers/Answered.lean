import Daku.Readers.Stdio
import Mathlib.Data.List.Forall2
import Mathlib.Data.List.ReduceOption

/-!
# Replies match requests

The stdio loop of `crates/daku-core/src/mcp.rs:371–402` owes one reply to each line that is no
JSON and to each message with an id. It keeps to that as long as it does not come to a line whose
bytes are no UTF-8, which ends it, or to a message that has an id but no text as its method, which
it drops.
-/

namespace Daku.Readers

open Daku.Base Daku.Protocol

/-- What a line of the input is. -/
inductive Asked where
  | blank
  | unparsable
  | message (m : Value)

/-- What a line is, by its bytes and the JSON parser. -/
def asked (fromStr : FromStr) (line : List UInt8) : Asked :=
  match lineText line with
  | none => .unparsable
  | some text =>
    if trim text = "" then .blank
    else
      match fromStr text with
      | none => .unparsable
      | some m => .message m

/-- The line is owed a reply. -/
def owed (fromStr : FromStr) (line : List UInt8) : Bool :=
  match asked fromStr line with
  | .blank => false
  | .unparsable => true
  | .message m => (m.get "id").isSome

/-- The answer is the one owed: an error reply for a line that is no JSON, a reply with the id for
a message that has one, else no reply. -/
def Answers : Asked → Option Value → Prop
  | .blank, answer => answer = none
  | .unparsable, answer => ∃ reply, answer = some reply ∧
      (reply.get "error").bind (Value.get · "code") = some (intValue (-32700))
  | .message m, answer =>
    match m.get "id" with
    | none => answer = none
    | some id => ∃ reply, answer = some reply ∧ reply.get "id" = some id

/-- The replies after some first ones are the answers to the lines done, in their order; all lines
are done, or the next one is owed a reply that cannot be written. -/
def RepliesMatch (fromStr : FromStr) (accepts : Nat → Bool) (replies : List Value)
    (lines : List (List UInt8)) (o : Outcome) : Prop :=
  ∃ (done : List (List UInt8)) (answers : List (Option Value)),
    List.Forall₂ (fun line answer ↦ Answers (asked fromStr line) answer) done answers ∧
    o.replies = replies ++ answers.reduceOption ∧
    (o.ended = .eof ∧ lines = done ∧ o.unread = [] ∨
      o.ended = .unwritable ∧ ∃ line, lines = done ++ line :: o.unread ∧
        owed fromStr line = true ∧ accepts o.replies.length = false)

/-- The line's bytes are a text, and if it is a message with an id, a text is its method. -/
def Served (fromStr : FromStr) (line : List UInt8) : Prop :=
  (lineText line).isSome ∧ ∀ m, asked fromStr line = .message m → (m.get "id").isSome →
    ((m.get "method").bind Value.asStr).isSome

/-- Every line the loop comes to is served, if `n` replies are written already. The loop comes to
a line if all replies owed before it can be written. -/
def ServedFrom (fromStr : FromStr) (accepts : Nat → Bool) (n : Nat)
    (lines : List (List UInt8)) : Prop :=
  ∀ before line after, lines = before ++ line :: after →
    (∀ k < before.countP (owed fromStr), accepts (n + k) = true) → Served fromStr line

section Line

variable {server : Server} {line : List UInt8} {text : String}

theorem asked_of_lineText (fromStr : FromStr) (h : lineText line = some text) :
    asked fromStr line = if trim text = "" then .blank else
      match fromStr text with
      | none => .unparsable
      | some m => .message m := by
  rw [asked, h]

theorem owed_of_answers {fromStr : FromStr} {answer : Option Value}
    (h : Answers (asked fromStr line) answer) : owed fromStr line = answer.isSome := by
  rw [owed]
  cases hasked : asked fromStr line with
  | blank =>
    rw [hasked] at h
    rw [show answer = none from h]
    rfl
  | unparsable =>
    rw [hasked] at h
    obtain ⟨reply, rfl, -⟩ := h
    rfl
  | message m =>
    rw [hasked, Answers] at h
    cases hid : m.get "id" with
    | none =>
      rw [hid] at h
      rw [show answer = none from h]
      simp [hid]
    | some id =>
      rw [hid] at h
      obtain ⟨reply, rfl, -⟩ := h
      simp [hid]

/-- A served line gets the answer it is owed. -/
theorem answers_replyTo (world : World) (htext : lineText line = some text)
    (h : Served server.fromStr line) :
    Answers (asked server.fromStr line) (replyTo server world text) := by
  have hmethod := h.2
  rw [asked_of_lineText _ htext] at hmethod ⊢
  rw [replyTo]
  split
  · rfl
  · rename_i hblank
    rw [if_neg hblank] at hmethod
    cases hparse : server.fromStr text with
    | none => exact ⟨_, rfl, rfl⟩
    | some m =>
      rw [hparse] at hmethod
      dsimp only [Answers]
      cases hid : m.get "id" with
      | none => exact handleMessage_eq_none.mpr (Or.inl hid)
      | some id =>
        have hstr := hmethod m rfl (by rw [hid]; rfl)
        cases hreply : handleMessage server world m with
        | none =>
          cases handleMessage_eq_none.mp hreply with
          | inl hnone => rw [hid] at hnone; cases hnone
          | inr hnone => rw [hnone] at hstr; cases hstr
        | some reply => exact ⟨reply, rfl, (get_id_of_handleMessage hreply).2.trans hid⟩

/-- A line with a text that is not served is owed a reply and gets none. -/
theorem replyTo_of_not_served (world : World) (htext : lineText line = some text)
    (h : ¬ Served server.fromStr line) :
    replyTo server world text = none ∧ owed server.fromStr line = true := by
  have hmissed : ∃ m, asked server.fromStr line = .message m ∧ (m.get "id").isSome ∧
      (m.get "method").bind Value.asStr = none := by
    simpa [Served, htext] using h
  obtain ⟨m, hasked, hid, hmethod⟩ := hmissed
  refine ⟨?_, by rw [owed, hasked]; exact hid⟩
  rw [asked_of_lineText _ htext] at hasked
  rw [replyTo]
  split
  · rfl
  · rename_i hblank
    rw [if_neg hblank] at hasked
    cases hparse : server.fromStr text with
    | none => rw [hparse] at hasked; cases hasked
    | some message =>
      rw [hparse] at hasked
      cases hasked
      exact handleMessage_eq_none.mpr (Or.inr hmethod)

/-- A line that gets a reply is served. -/
theorem served_of_replyTo {world : World} (htext : lineText line = some text) {reply : Value}
    (h : replyTo server world text = some reply) : Served server.fromStr line := by
  by_contra hnot
  rw [(replyTo_of_not_served world htext hnot).1] at h
  cases h

end Line

section Run

variable {server : Server} {accepts : Nat → Bool} {worlds : Nat → World} {replies : List Value}
  {line : List UInt8} {lines : List (List UInt8)} {text : String}

theorem runLines_of_undecodable (h : lineText line = none) :
    runLines server accepts worlds replies (line :: lines) = ⟨replies, lines, .undecodable⟩ := by
  rw [runLines, h]

theorem runLines_of_silent (h : lineText line = some text)
    (hreply : replyTo server (worlds 0) text = none) :
    runLines server accepts worlds replies (line :: lines) =
      runLines server accepts (fun n ↦ worlds (n + 1)) replies lines := by
  rw [runLines, h]
  dsimp only
  rw [hreply]

theorem runLines_of_reply (h : lineText line = some text) {reply : Value}
    (hreply : replyTo server (worlds 0) text = some reply) :
    runLines server accepts worlds replies (line :: lines) =
      if accepts replies.length then
        runLines server accepts (fun n ↦ worlds (n + 1)) (replies ++ [reply]) lines
      else ⟨replies, lines, .unwritable⟩ := by
  rw [runLines, h]
  dsimp only
  rw [hreply]

/-- The loop only adds replies. -/
theorem replies_runLines (server : Server) (accepts : Nat → Bool) (worlds : Nat → World)
    (replies : List Value) (lines : List (List UInt8)) :
    ∃ added, (runLines server accepts worlds replies lines).replies = replies ++ added := by
  induction lines generalizing worlds replies with
  | nil => exact ⟨[], (List.append_nil _).symm⟩
  | cons line lines ih =>
    cases htext : lineText line with
    | none =>
      rw [runLines_of_undecodable htext]
      exact ⟨[], (List.append_nil _).symm⟩
    | some text =>
      cases hreply : replyTo server (worlds 0) text with
      | none =>
        rw [runLines_of_silent htext hreply]
        exact ih _ _
      | some reply =>
        rw [runLines_of_reply htext hreply]
        split
        · obtain ⟨added, hadded⟩ := ih (fun n ↦ worlds (n + 1)) (replies ++ [reply])
          exact ⟨reply :: added, by rw [hadded, List.append_assoc, List.singleton_append]⟩
        · exact ⟨[], (List.append_nil _).symm⟩

/-- It adds at most one for each line done that is owed a reply. -/
theorem length_replies_runLines (server : Server) (accepts : Nat → Bool) (worlds : Nat → World)
    (replies : List Value) (lines : List (List UInt8)) :
    ∃ done rest, lines = done ++ rest ∧
      (runLines server accepts worlds replies lines).replies.length ≤
        replies.length + done.countP (owed server.fromStr) ∧
      rest.length = (runLines server accepts worlds replies lines).unread.length +
        (if (runLines server accepts worlds replies lines).ended = .eof then 0 else 1) := by
  induction lines generalizing worlds replies with
  | nil => exact ⟨[], [], rfl, Nat.le_refl _, rfl⟩
  | cons line lines ih =>
    cases htext : lineText line with
    | none =>
      rw [runLines_of_undecodable htext]
      exact ⟨[], line :: lines, rfl, Nat.le_refl _, rfl⟩
    | some text =>
      cases hreply : replyTo server (worlds 0) text with
      | none =>
        rw [runLines_of_silent htext hreply]
        obtain ⟨done, rest, hlines, hlength, hrest⟩ := ih (fun n ↦ worlds (n + 1)) replies
        refine ⟨line :: done, rest, by rw [hlines]; rfl, hlength.trans ?_, hrest⟩
        rw [List.countP_cons]
        omega
      | some reply =>
        have howed : owed server.fromStr line = true := by
          rw [owed_of_answers (answers_replyTo (worlds 0) htext
            (served_of_replyTo htext hreply)), hreply]
          rfl
        rw [runLines_of_reply htext hreply]
        split
        · obtain ⟨done, rest, hlines, hlength, hrest⟩ :=
            ih (fun n ↦ worlds (n + 1)) (replies ++ [reply])
          refine ⟨line :: done, rest, by rw [hlines]; rfl, hlength.trans ?_, hrest⟩
          rw [List.countP_cons_of_pos howed, List.length_append, List.length_singleton]
          omega
        · exact ⟨[], line :: lines, rfl, Nat.le_refl _, rfl⟩

end Run

section Match

variable {fromStr : FromStr} {accepts : Nat → Bool} {n : Nat} {replies : List Value}
  {line : List UInt8} {lines : List (List UInt8)} {o : Outcome}

theorem servedFrom_cons : ServedFrom fromStr accepts n (line :: lines) ↔
    Served fromStr line ∧ ((owed fromStr line = true → accepts n = true) →
      ServedFrom fromStr accepts (n + (owed fromStr line).toNat) lines) := by
  constructor
  · intro h
    refine ⟨h [] line lines rfl fun k hk ↦ absurd hk (Nat.not_lt_zero k), ?_⟩
    intro hfirst before next after hlines hbefore
    apply h (line :: before) next after (by rw [hlines]; rfl)
    intro k hk
    cases howed : owed fromStr line with
    | false =>
      rw [List.countP_cons_of_neg (by rw [howed]; exact Bool.false_ne_true)] at hk
      simpa [howed] using hbefore k hk
    | true =>
      rw [List.countP_cons_of_pos howed] at hk
      cases k with
      | zero => exact hfirst howed
      | succ k =>
        have := hbefore k (by omega)
        rwa [howed, Bool.toNat_true, Nat.add_assoc, Nat.add_comm 1 k] at this
  · rintro ⟨hline, hrest⟩ before next after hlines hbefore
    cases before with
    | nil =>
      cases hlines
      exact hline
    | cons first before =>
      cases hlines
      apply hrest _ before next after rfl
      · intro k hk
        cases howed : owed fromStr line with
        | false =>
          apply hbefore
          rwa [List.countP_cons_of_neg (by rw [howed]; exact Bool.false_ne_true)]
        | true =>
          have := hbefore (k + 1) (by rw [List.countP_cons_of_pos howed]; omega)
          rwa [Bool.toNat_true, Nat.add_assoc, Nat.add_comm 1 k]
      · intro howed
        exact hbefore 0 (by rw [List.countP_cons_of_pos howed]; omega)

/-- One line more in front, with its answer. -/
theorem RepliesMatch.cons {answer : Option Value}
    (hanswer : Answers (asked fromStr line) answer)
    (h : RepliesMatch fromStr accepts (replies ++ answer.toList) lines o) :
    RepliesMatch fromStr accepts replies (line :: lines) o := by
  obtain ⟨done, answers, hanswers, hreplies, hend⟩ := h
  refine ⟨line :: done, answer :: answers, .cons hanswer hanswers, ?_, ?_⟩
  · rw [hreplies, List.append_assoc]
    cases answer <;> rfl
  · cases hend with
    | inl heof => exact Or.inl ⟨heof.1, by rw [heof.2.1], heof.2.2⟩
    | inr hdead =>
      obtain ⟨hended, next, hlines, hnext⟩ := hdead
      exact Or.inr ⟨hended, next, by rw [hlines]; rfl, hnext⟩

/-- The first line is answered, or it is the one whose reply cannot be written. -/
theorem RepliesMatch.of_cons (h : RepliesMatch fromStr accepts replies (line :: lines) o) :
    (∃ answer, Answers (asked fromStr line) answer ∧
      RepliesMatch fromStr accepts (replies ++ answer.toList) lines o) ∨
    (o.ended = .unwritable ∧ o.unread = lines ∧ o.replies = replies ∧
      owed fromStr line = true ∧ accepts replies.length = false) := by
  obtain ⟨done, answers, hanswers, hreplies, hend⟩ := h
  cases hanswers with
  | nil =>
    rw [List.reduceOption_nil, List.append_nil] at hreplies
    cases hend with
    | inl heof => cases heof.2.1
    | inr hdead =>
      obtain ⟨hended, next, hlines, howed, haccepts⟩ := hdead
      cases hlines
      exact Or.inr ⟨hended, rfl, hreplies, howed, hreplies ▸ haccepts⟩
  | @cons first answer done answers hanswer hanswers =>
    apply Or.inl
    have hreplies : o.replies = (replies ++ answer.toList) ++ answers.reduceOption := by
      rw [hreplies, List.append_assoc]
      cases answer <;> rfl
    cases hend with
    | inl heof =>
      obtain ⟨hended, hlines, hunread⟩ := heof
      cases hlines
      exact ⟨answer, hanswer, lines, answers, hanswers, hreplies, Or.inl ⟨hended, rfl, hunread⟩⟩
    | inr hdead =>
      obtain ⟨hended, next, hlines, hnext⟩ := hdead
      cases hlines
      exact ⟨answer, hanswer, done, answers, hanswers, hreplies, Or.inr ⟨hended, next, rfl, hnext⟩⟩

theorem RepliesMatch.exists_added (h : RepliesMatch fromStr accepts replies lines o) :
    ∃ added, o.replies = replies ++ added := by
  obtain ⟨_, answers, _, hreplies, _⟩ := h
  exact ⟨answers.reduceOption, hreplies⟩

/-- There is a reply for each line done that is owed one. -/
theorem RepliesMatch.length_replies (h : RepliesMatch fromStr accepts replies lines o) :
    ∃ done rest, lines = done ++ rest ∧
      o.replies.length = replies.length + done.countP (owed fromStr) ∧
      rest.length = o.unread.length + (if o.ended = .eof then 0 else 1) := by
  obtain ⟨done, answers, hanswers, hreplies, hend⟩ := h
  have hcount : answers.reduceOption.length = done.countP (owed fromStr) := by
    clear hreplies hend
    induction hanswers with
    | nil => rfl
    | @cons line answer done answers hanswer _ ih =>
      rw [List.countP_cons, ← ih, owed_of_answers hanswer]
      cases answer with
      | none => rfl
      | some reply => rfl
  have hlength : o.replies.length = replies.length + done.countP (owed fromStr) := by
    rw [hreplies, List.length_append, hcount]
  cases hend with
  | inl heof =>
    obtain ⟨hended, hlines, hunread⟩ := heof
    refine ⟨done, [], by rw [hlines, List.append_nil], hlength, ?_⟩
    rw [hended, hunread]
    rfl
  | inr hdead =>
    obtain ⟨hended, next, hlines, -⟩ := hdead
    refine ⟨done, next :: o.unread, hlines, hlength, ?_⟩
    rw [hended]
    rfl

end Match

section Run

variable {server : Server} {accepts : Nat → Bool}

/-- A loop that is served at every line answers them all. -/
theorem repliesMatch_of_servedFrom (worlds : Nat → World) (replies : List Value)
    {lines : List (List UInt8)}
    (h : ServedFrom server.fromStr accepts replies.length lines) :
    RepliesMatch server.fromStr accepts replies lines
      (runLines server accepts worlds replies lines) := by
  induction lines generalizing worlds replies with
  | nil => exact ⟨[], [], .nil, (List.append_nil _).symm, Or.inl ⟨rfl, rfl, rfl⟩⟩
  | cons line lines ih =>
    obtain ⟨hline, hrest⟩ := servedFrom_cons.mp h
    obtain ⟨text, htext⟩ := Option.isSome_iff_exists.mp hline.1
    have hanswer := answers_replyTo (worlds 0) htext hline
    have howed := owed_of_answers hanswer
    cases hreply : replyTo server (worlds 0) text with
    | none =>
      rw [hreply] at hanswer howed
      rw [runLines_of_silent htext hreply]
      apply RepliesMatch.cons hanswer
      rw [Option.toList_none, List.append_nil]
      apply ih
      simpa [howed] using hrest
    | some reply =>
      rw [hreply] at hanswer howed
      rw [runLines_of_reply htext hreply]
      split
      · rename_i haccepts
        apply RepliesMatch.cons hanswer
        apply ih
        simpa [howed] using hrest fun _ ↦ haccepts
      · rename_i haccepts
        refine ⟨[], [], .nil, (List.append_nil _).symm, Or.inr ⟨rfl, line, rfl, howed, ?_⟩⟩
        simpa using haccepts

/-- A loop that answers all lines was served at every line it came to. -/
theorem servedFrom_of_repliesMatch (worlds : Nat → World) (replies : List Value)
    {lines : List (List UInt8)}
    (h : RepliesMatch server.fromStr accepts replies lines
      (runLines server accepts worlds replies lines)) :
    ServedFrom server.fromStr accepts replies.length lines := by
  induction lines generalizing worlds replies with
  | nil =>
    intro before line after hlines
    exact absurd hlines (List.append_ne_nil_of_right_ne_nil _ (List.cons_ne_nil _ _)).symm
  | cons line lines ih =>
    cases htext : lineText line with
    | none =>
      rw [runLines_of_undecodable htext] at h
      obtain ⟨_, _, _, _, heof | hdead⟩ := h
      · cases heof.1
      · cases hdead.1
    | some text =>
      cases hreply : replyTo server (worlds 0) text with
      | none =>
        rw [runLines_of_silent htext hreply] at h
        have hcount := length_replies_runLines server accepts (fun n ↦ worlds (n + 1)) replies lines
        obtain ⟨done, rest, hlines, hlength, hrest⟩ := hcount
        cases h.of_cons with
        | inr hdead =>
          -- The line was read, so it is not the one whose reply could not be written.
          rw [hdead.2.1, hdead.1, if_neg (by decide)] at hrest
          have := congrArg List.length hlines
          rw [List.length_append] at this
          omega
        | inl hcons =>
          obtain ⟨answer, hanswer, hmatch⟩ := hcons
          have howed := owed_of_answers hanswer
          cases answer with
          | none =>
            rw [Option.toList_none, List.append_nil] at hmatch
            refine servedFrom_cons.mpr ⟨?_, fun _ ↦ ?_⟩
            · by_contra hnot
              rw [(replyTo_of_not_served (worlds 0) htext hnot).2] at howed
              cases howed
            · simpa [howed] using ih _ _ hmatch
          | some reply =>
            -- A reply is missing, and the lines done after it have at most one each.
            obtain ⟨done', rest', hlines', hlength', hrest'⟩ := hmatch.length_replies
            have hdone : done = done' :=
              (List.append_inj' (hlines.symm.trans hlines') (hrest.trans hrest'.symm)).1
            rw [hdone] at hlength
            rw [List.length_append] at hlength'
            simp only [Option.toList_some, List.length_singleton] at hlength'
            omega
      | some reply =>
        have hline := served_of_replyTo htext hreply
        have hanswer := answers_replyTo (worlds 0) htext hline
        rw [hreply] at hanswer
        have howed := owed_of_answers hanswer
        rw [runLines_of_reply htext hreply] at h
        refine servedFrom_cons.mpr ⟨hline, fun haccepts ↦ ?_⟩
        rw [if_pos (haccepts howed)] at h
        obtain ⟨added, hadded⟩ := replies_runLines server accepts (fun n ↦ worlds (n + 1))
          (replies ++ [reply]) lines
        cases h.of_cons with
        | inr hdead =>
          rw [hdead.2.2.1, List.append_assoc] at hadded
          exact absurd (List.self_eq_append_right.mp hadded) (List.cons_ne_nil _ _)
        | inl hcons =>
          obtain ⟨answer, hother, hmatch⟩ := hcons
          have hsome := (owed_of_answers hother).symm.trans howed
          cases answer with
          | none => cases hsome
          | some other =>
            obtain ⟨further, hfurther⟩ := hmatch.exists_added
            rw [hfurther, Option.toList_some, List.append_assoc, List.append_assoc] at hadded
            have hsame := List.append_cancel_left hadded
            rw [List.singleton_append, List.singleton_append, List.cons.injEq] at hsame
            rw [hsame.1, Option.toList_some] at hmatch
            simpa [howed] using ih _ _ hmatch

end Run

/-- The replies match the requests exactly if every line the loop comes to is served. -/
theorem replies_match_iff (server : Server) (accepts : Nat → Bool) (worlds : Nat → World)
    (input : List UInt8) :
    RepliesMatch server.fromStr accepts [] (inputLines [] input)
        (runStdio server accepts worlds input) ↔
      ServedFrom server.fromStr accepts 0 (inputLines [] input) :=
  ⟨servedFrom_of_repliesMatch worlds [], repliesMatch_of_servedFrom worlds []⟩

/-- Reads `{"id":1}` only. -/
def idOnlyServer : Server where
  fromStr := fun text ↦
    if text = "\x7b\"id\":1\x7d" then some (.object [("id", .number (.posInt 1))]) else none
  toPretty := fun _ ↦ ""
  environmentsPath := "environments.json"

/-- The bytes of `{"id":1}`. -/
def idOnlyLine : List UInt8 := [0x7B, 0x22, 0x69, 0x64, 0x22, 0x3A, 0x31, 0x7D]

/-- No file, no store. -/
def emptyWorld : World := ⟨.missing, .error "unable to open database file", 0⟩

/-- The line `{"id":1}` asks for a reply and gets none; the byte `0xFF` in a line ends the loop
before the line after it is read. -/
theorem replies_missing :
    ¬ RepliesMatch idOnlyServer.fromStr (fun _ ↦ true) [] (inputLines [] (idOnlyLine ++ [10]))
      (runStdio idOnlyServer (fun _ ↦ true) (fun _ ↦ emptyWorld) (idOnlyLine ++ [10])) ∧
    ¬ RepliesMatch idOnlyServer.fromStr (fun _ ↦ true) [] (inputLines [] [0xFF, 10, 0x7B, 10])
      (runStdio idOnlyServer (fun _ ↦ true) (fun _ ↦ emptyWorld) [0xFF, 10, 0x7B, 10]) := by
  constructor
  · intro h
    have hserved : Served idOnlyServer.fromStr idOnlyLine :=
      servedFrom_of_repliesMatch _ [] h [] _ [] rfl fun k hk ↦ absurd hk (Nat.not_lt_zero k)
    have hasked : asked idOnlyServer.fromStr idOnlyLine =
        .message (.object [("id", .number (.posInt 1))]) := by
      have htext : lineText idOnlyLine = some "\x7b\"id\":1\x7d" := by decide
      rw [asked_of_lineText _ htext]
      rfl
    exact Bool.false_ne_true (hserved.2 _ hasked rfl)
  · intro h
    have hserved : Served idOnlyServer.fromStr [0xFF] :=
      servedFrom_of_repliesMatch _ [] h [] _ [[0x7B]] rfl fun k hk ↦ absurd hk (Nat.not_lt_zero k)
    exact Bool.false_ne_true hserved.1

end Daku.Readers
