import Mathlib.Data.List.Induction
import ScamOn.Lib.Chars

/-!
# HTML events and open elements

What a tokenizer of HTML delivers, and which elements are open at a point of it.

* `openElements` is the stack of the open elements of certain names: a start tag opens an element,
  an end tag closes the innermost open element of its name with all that is open inside of it, and
  an end tag without an open element closes nothing.
* `lastTag` is the last tag of certain names.  `openElements_ne_nil_of_lastTag` and
  `openElements_of_lastTag_eq_none` say what it tells about the stack, and
  `openElements_concat_of_unlisted` that other events tell nothing.
-/

namespace ScamOn

/-- An event of `HTMLParser`. -/
inductive HtmlEvent
  | startTag (tag : Str) (attrs : List (Str × Option Str))
  | endTag (tag : Str)
  | data (text : Str)
  deriving DecidableEq

namespace HtmlEvent

/-- The tag of an event. -/
def tag? : HtmlEvent → Option Str
  | .startTag tag _ => some tag
  | .endTag tag => some tag
  | .data _ => none

/-- The event is a start tag. -/
def isStart : HtmlEvent → Bool
  | .startTag _ _ => true
  | _ => false

end HtmlEvent

section Stack

variable (name : Str → Str) (opens : Str → Bool)

/-- An end tag for an element. -/
def closeElement (tag : Str) (stack : List Str) : List Str :=
  if stack.contains tag then (stack.dropWhile (· ≠ tag)).tail else stack

/-- What an event does to the stack of open elements. -/
def stackStep (stack : List Str) : HtmlEvent → List Str
  | .startTag tag _ => if opens (name tag) then name tag :: stack else stack
  | .endTag tag => closeElement (name tag) stack
  | .data _ => stack

/-- The open elements, the innermost first. -/
def openElements (events : List HtmlEvent) : List Str := events.foldl (stackStep name opens) []

/-- The last tag of certain names. -/
def lastTag (listed : Str → Bool) (events : List HtmlEvent) : Option HtmlEvent :=
  events.reverse.find? fun event => event.tag?.any fun tag => listed (name tag)

variable {name opens}

@[simp] theorem openElements_nil : openElements name opens [] = [] := rfl

@[simp] theorem openElements_concat (events : List HtmlEvent) (event : HtmlEvent) :
    openElements name opens (events ++ [event]) =
      stackStep name opens (openElements name opens events) event :=
  List.foldl_concat ..

/-- Only elements of the names that open one are open. -/
theorem opens_of_mem_openElements (events : List HtmlEvent) :
    ∀ tag ∈ openElements name opens events, opens tag = true := by
  induction events using List.reverseRecOn with
  | nil => exact fun _ h => absurd h List.not_mem_nil
  | append_singleton events event ih =>
    intro tag htag
    rw [openElements_concat] at htag
    cases event with
    | startTag tag' attrs =>
      simp only [stackStep] at htag
      split_ifs at htag with hopens
      · rcases List.mem_cons.1 htag with rfl | htag
        · exact hopens
        · exact ih tag htag
      · exact ih tag htag
    | endTag tag' =>
      simp only [stackStep, closeElement] at htag
      split_ifs at htag
      · exact ih tag ((List.dropWhile_sublist _).subset (List.mem_of_mem_tail htag))
      · exact ih tag htag
    | data text => exact ih tag htag

variable {listed : Str → Bool} {events : List HtmlEvent} {event : HtmlEvent}

theorem lastTag_concat (events : List HtmlEvent) (event : HtmlEvent) :
    lastTag name listed (events ++ [event]) =
      if (event.tag?.any fun tag => listed (name tag)) then some event
      else lastTag name listed events := by
  rw [lastTag, List.reverse_concat, List.find?_cons]
  cases event.tag?.any fun tag => listed (name tag) <;> rfl

/-- An event without a listed tag leaves the stack as it is. -/
theorem openElements_concat_of_unlisted (hlisted : ∀ tag, opens tag = true → listed tag = true)
    (h : (event.tag?.any fun tag => listed (name tag)) = false) :
    openElements name opens (events ++ [event]) = openElements name opens events := by
  rw [openElements_concat]
  cases event with
  | startTag tag attrs =>
    have htag : ¬opens (name tag) = true := fun hopens => Bool.eq_false_iff.1 h (hlisted _ hopens)
    exact if_neg htag
  | endTag tag =>
    have htag : name tag ∉ openElements name opens events := fun hmem =>
      Bool.eq_false_iff.1 h (hlisted _ (opens_of_mem_openElements events _ hmem))
    exact if_neg fun hmem => htag (List.contains_iff_mem.1 hmem)
  | data text => rfl

/-- Without a listed tag nothing is open. -/
theorem openElements_of_lastTag_eq_none (hlisted : ∀ tag, opens tag = true → listed tag = true)
    (h : lastTag name listed events = none) : openElements name opens events = [] := by
  induction events using List.reverseRecOn with
  | nil => rfl
  | append_singleton events event ih =>
    rw [lastTag_concat] at h
    split_ifs at h with htag
    rw [openElements_concat_of_unlisted hlisted (Bool.eq_false_iff.2 htag), ih h]

/-- After the start tag of an element, until the next listed tag, the element is open. -/
theorem openElements_ne_nil_of_lastTag (hlisted : ∀ tag, opens tag = true → listed tag = true)
    {tag : Str} {attrs : List (Str × Option Str)}
    (h : lastTag name listed events = some (.startTag tag attrs)) (hopens : opens (name tag) = true) :
    openElements name opens events ≠ [] := by
  induction events using List.reverseRecOn with
  | nil => cases h
  | append_singleton events event ih =>
    rw [lastTag_concat] at h
    split_ifs at h with htag
    · cases h
      rw [openElements_concat, stackStep, if_pos hopens]
      exact List.cons_ne_nil _ _
    · rw [openElements_concat_of_unlisted hlisted (Bool.eq_false_iff.2 htag)]
      exact ih h

end Stack

end ScamOn
