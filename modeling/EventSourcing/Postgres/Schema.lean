/-!
The tables of a store in a relational database.
-/

namespace EventSourcing.Postgres

/-- One row for each stream. -/
def headersTable : String := "
CREATE TABLE IF NOT EXISTS stream_headers (
    stream_key  TEXT PRIMARY KEY,
    version     BIGINT NOT NULL,
    updated_at  TIMESTAMPTZ NOT NULL DEFAULT NOW()
);
"

/-- One row for each record, which is an event or a packet of events. -/
def recordsTable : String := "
CREATE TABLE IF NOT EXISTS stream_records (
    record_id       UUID NOT NULL,
    stream_key      TEXT NOT NULL REFERENCES stream_headers (stream_key),
    first_position  BIGINT NOT NULL,
    last_position   BIGINT NOT NULL,
    kind            VARCHAR(16) NOT NULL,
    initiator_id    UUID NOT NULL,
    body            JSONB NOT NULL,
    PRIMARY KEY (stream_key, record_id),
    UNIQUE (stream_key, first_position)
);

CREATE INDEX IF NOT EXISTS idx_stream_records_initiator_id
    ON stream_records (stream_key, initiator_id);
"

end EventSourcing.Postgres
