/-! The configuration that a new user starts from. -/

namespace LogRelay.Config

def starterLines : List String :=
  [ "# =============================================================================",
    "# LOGSHIP CONFIGURATION",
    "# =============================================================================",
    "# Batches log lines per source and ships them to a log ingestion API.",
    "#",
    "# Config file locations (in order of precedence):",
    "#   1. Path specified via --config argument",
    "#   2. ~/.config/logship/config.yml",
    "#   3. /etc/logship/config.yml",
    "#",
    "# Any value may reference an environment variable as $env\x7b...\x7d.",
    "",
    "# =============================================================================",
    "# REMOTE",
    "# =============================================================================",
    "remote:",
    "  # Base URL of the ingestion API. Requests are sent unsigned, so point this at",
    "  # a gateway that handles authentication, or at a local emulator.",
    "  endpoint: http://127.0.0.1:4566",
    "  # Timeout for a single HTTP request",
    "  request_timeout: 5s",
    "  # Upper bound on any remote call; while a call is running no other source",
    "  # can make progress",
    "  call_timeout: 10s",
    "",
    "# =============================================================================",
    "# DESTINATION",
    "# =============================================================================",
    "destination:",
    "  # Log group shared by all sources (null: logship-<hostname>)",
    "  group: null",
    "  # Streams are named <stream_prefix>-<source id> (null: <hostname>)",
    "  stream_prefix: null",
    "",
    "# =============================================================================",
    "# BATCHING",
    "# =============================================================================",
    "# These mirror the ingestion API's own limits; lowering them is safe, raising",
    "# them will get submissions rejected.",
    "batching:",
    "  max_events: 1000",
    "  max_bytes: 32768",
    "  # Bytes the API adds to each event when accounting batch size",
    "  event_overhead: 28",
    "  # Every non-empty batch is flushed at least this often",
    "  sweep_interval: 10s",
    "",
    "# =============================================================================",
    "# STATUS (optional)",
    "# =============================================================================",
    "# Serves GET /health and GET /status. Remove the section to disable.",
    "status:",
    "  listen: 127.0.0.1:7106" ]

def starter : String := String.join (starterLines.map (· ++ "\n"))

end LogRelay.Config
