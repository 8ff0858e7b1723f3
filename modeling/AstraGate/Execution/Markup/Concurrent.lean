import AstraGate.Lib.Steps
import AstraGate.Services.AdminMarkup

open Function

-- Transactions that set the global rate or the rate of a provider, in any order of their
-- statements.
namespace Markup.Concurrent

abbrev TaskId := Nat

-- What a transaction has flushed, and nobody else sees before its commit.
inductive Write
  | insert (l : Level) (id : UUID) (rate : ℚ)
  | update (id : UUID) (rate : ℚ)
deriving DecidableEq

inductive Task
  | fresh
  | looked (l : Level) (rate : ℚ) (config : Option MarkupConfig)
  | flushed (write : Write)
  | over
deriving DecidableEq

structure State where
  configs : List MarkupConfig
  tasks   : TaskId → Task

namespace State

structure Initial (s : State) : Prop where
  unambiguous : ∀ l : Level, (l.rows s.configs).length ≤ 1
  fresh       : ∀ t, s.tasks t = .fresh

def setTask (s : State) (t : TaskId) (k : Task) : State :=
  { s with tasks := update s.tasks t k }

def commit (s : State) (t : TaskId) : Write → State
  | .insert l id rate => { s with configs := s.configs ++ [l.newConfig id rate] }.setTask t .over
  | .update id rate   => { s with configs := setRate id rate s.configs }.setTask t .over

-- The id is neither that of a committed row nor that of a row that waits for its commit.
structure New (s : State) (id : UUID) : Prop where
  committed : id ∉ s.configs.map MarkupConfig.id
  flushed   : ∀ t l rate, s.tasks t ≠ .flushed (.insert l id rate)

end State

-- `uq_markup_config_scope`, where a null is different from every other.
def Conflicts (c c' : MarkupConfig) : Prop :=
  c.scope = c'.scope ∧ (∃ p, c.providerId = some p ∧ c'.providerId = some p) ∧
    ∃ m, c.modelId = some m ∧ c'.modelId = some m

variable (providers : List UUID)

inductive Step (s : State) : State → Type
  | look (t : TaskId) (l : Level) (body : MarkupRequest) (config : Option MarkupConfig)
    (task : s.tasks t = .fresh) (provider : ∀ id ∈ l.providerId, id ∈ providers)
    (result : Sql.scalarOneOrNone (l.rows s.configs) = .ok config) :
    Step s (s.setTask t <| .looked l body.markupRate config)
  | insert (t : TaskId) (l : Level) (id : UUID) (rate : ℚ) (task : s.tasks t = .looked l rate none)
    (new : s.New id) (unique : ∀ c ∈ s.configs, ¬Conflicts c (l.newConfig id rate)) :
    Step s (s.setTask t <| .flushed <| .insert l id rate)
  -- An update waits for others of the same row.
  | update (t : TaskId) (l : Level) (config : MarkupConfig) (rate : ℚ)
    (task : s.tasks t = .looked l rate (some config))
    (free : ∀ t' rate', s.tasks t' ≠ .flushed (.update config.id rate')) :
    Step s (s.setTask t <| .flushed <| .update config.id rate)
  | commit (t : TaskId) (write : Write) (task : s.tasks t = .flushed write) :
    Step s (s.commit t write)
  -- A lookup raises, or the request fails.
  | rollback (t : TaskId) : Step s (s.setTask t .over)

abbrev Run := Steps (Step providers)

end Markup.Concurrent
