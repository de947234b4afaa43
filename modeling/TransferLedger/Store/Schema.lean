import TransferLedger.Store
/-!
# The schema of the transfers table

* `isNumber`, `isRequired`: the type of a column, and whether it must hold something;
* `schema`: the same as a statement.
-/

namespace TransferLedger.Schema

/-- Whether a column holds integers; the others hold texts. -/
def isNumber : Transfer.Field → Bool
  | .logIndex | .blockNumber => true
  | _ => false

/-- Whether a column must hold something. -/
def isRequired : Transfer.Field → Bool
  | .receiver => false
  | _ => true

/-- The statement that creates the table and the index of its listing order. -/
def schema : String :=
  s!"CREATE TABLE IF NOT EXISTS transfers (
            tx_hash       TEXT    NOT NULL,
            log_index     INTEGER NOT NULL,
            block_number  INTEGER NOT NULL,
            token_address TEXT    NOT NULL,
            from_address  TEXT    NOT NULL,
            to_address    TEXT,
            amount        TEXT    NOT NULL
                CHECK ({amountCheckText}),
            committed_at  INTEGER NOT NULL,
            PRIMARY KEY (tx_hash, log_index)
        );
        CREATE INDEX IF NOT EXISTS idx_transfers_recent
            ON transfers (block_number DESC, log_index DESC);"

end TransferLedger.Schema
